import Mathlib

/-! # JSON texts

The compact text of a JSON value whose words (`null`, `true`, `false` and numbers) are
already spelled and whose members are already in order. A text can be read in one way
only.
-/

namespace JsonText

/-! ## Quoted strings -/

def hexDigit (n : Nat) : Char := if n < 10 then Char.ofNat (48 + n) else Char.ofNat (87 + n)

def escaped (c : Char) : List Char :=
  if c = '"' then ['\\', '"']
  else if c = '\\' then ['\\', '\\']
  else if c.toNat = 8 then ['\\', 'b']
  else if c.toNat = 9 then ['\\', 't']
  else if c.toNat = 10 then ['\\', 'n']
  else if c.toNat = 12 then ['\\', 'f']
  else if c.toNat = 13 then ['\\', 'r']
  else if c.toNat < 32 then ['\\', 'u', '0', '0', hexDigit (c.toNat / 16), hexDigit (c.toNat % 16)]
  else [c]

def quoted (s : String) : List Char := '"' :: (s.toList.flatMap escaped ++ ['"'])

def hexValue (c : Char) : Nat := if c.toNat < 58 then c.toNat - 48 else c.toNat - 87

/-- Reads one character of a quoted string. -/
def unescaped : List Char → Option (Char × List Char)
  | '\\' :: '"' :: rest => some ('"', rest)
  | '\\' :: '\\' :: rest => some ('\\', rest)
  | '\\' :: 'b' :: rest => some (Char.ofNat 8, rest)
  | '\\' :: 't' :: rest => some (Char.ofNat 9, rest)
  | '\\' :: 'n' :: rest => some (Char.ofNat 10, rest)
  | '\\' :: 'f' :: rest => some (Char.ofNat 12, rest)
  | '\\' :: 'r' :: rest => some (Char.ofNat 13, rest)
  | '\\' :: 'u' :: '0' :: '0' :: high :: low :: rest => some (Char.ofNat (16 * hexValue high + hexValue low), rest)
  | '"' :: _ => none
  | c :: rest => some (c, rest)
  | [] => none

theorem escaped_control (n : Nat) (small : n < 32) (rest : List Char) :
    unescaped (escaped (Char.ofNat n) ++ rest) = some (Char.ofNat n, rest) := by
  interval_cases n <;> rfl

theorem unescaped_escaped (c : Char) (rest : List Char) : unescaped (escaped c ++ rest) = some (c, rest) := by
  by_cases control : c.toNat < 32
  · have := escaped_control c.toNat control rest
    rwa [Char.ofNat_toNat] at this
  · by_cases quote : c = '"'
    · subst quote
      rfl
    · by_cases slash : c = '\\'
      · subst slash
        rfl
      · have plain : escaped c = [c] := by
          unfold escaped
          simp only [quote, slash, if_false]
          repeat rw [if_neg (by omega)]
        rw [plain]
        unfold unescaped
        split <;> simp_all

theorem escaped_ne_quote (c : Char) (s t : List Char) : escaped c ++ s ≠ '"' :: t := by
  intro same
  have read := unescaped_escaped c s
  rw [same] at read
  unfold unescaped at read
  simp at read

theorem characters_readable {a b s t : List Char}
    (same : a.flatMap escaped ++ '"' :: s = b.flatMap escaped ++ '"' :: t) : a = b ∧ s = t := by
  induction a generalizing b with
  | nil =>
      cases b with
      | nil => simpa using same
      | cons d b =>
          rw [List.flatMap_cons, List.append_assoc] at same
          exact absurd same.symm (escaped_ne_quote d _ _)
  | cons c a ih =>
      cases b with
      | nil =>
          rw [List.flatMap_cons, List.append_assoc] at same
          exact absurd same (escaped_ne_quote c _ _)
      | cons d b =>
          rw [List.flatMap_cons, List.flatMap_cons, List.append_assoc, List.append_assoc] at same
          have read := unescaped_escaped c (a.flatMap escaped ++ '"' :: s)
          rw [same, unescaped_escaped] at read
          simp only [Option.some.injEq, Prod.mk.injEq] at read
          obtain ⟨rfl, rest⟩ := read
          obtain ⟨rfl, rfl⟩ := ih rest.symm
          exact ⟨rfl, rfl⟩

theorem quoted_readable {a b : String} {s t : List Char} (same : quoted a ++ s = quoted b ++ t) : a = b ∧ s = t := by
  unfold quoted at same
  simp only [List.cons_append, List.append_assoc, List.nil_append, List.cons.injEq, true_and] at same
  obtain ⟨characters, rest⟩ := characters_readable same
  exact ⟨String.ext characters, rest⟩

end JsonText

/-! ## Texts -/

inductive JsonText where
  | word (characters : List Char)
  | string (value : String)
  | array (values : List JsonText)
  | object (members : List (String × JsonText))

namespace JsonText

mutual
def characters : JsonText → List Char
  | .word characters => characters
  | .string value => quoted value
  | .array [] => ['[', ']']
  | .array (value :: values) => '[' :: (characters value ++ moreValues values)
  | .object [] => ['\x7b', '\x7d']
  | .object ((name, value) :: members) =>
      '\x7b' :: (quoted name ++ ':' :: (characters value ++ moreMembers members))

/-- The rest of an array. -/
def moreValues : List JsonText → List Char
  | [] => [']']
  | value :: values => ',' :: (characters value ++ moreValues values)

/-- The rest of an object. -/
def moreMembers : List (String × JsonText) → List Char
  | [] => ['\x7d']
  | (name, value) :: members => ',' :: (quoted name ++ ':' :: (characters value ++ moreMembers members))
end

/-- A character that no word has. -/
def structural (c : Char) : Bool :=
  c == ',' || c == ':' || c == '"' || c == '[' || c == ']' || c == '\x7b' || c == '\x7d'

/-- Every word has characters, and none of them is structural. -/
inductive Worded : JsonText → Prop where
  | word {c : Char} {cs : List Char} (plain : (c :: cs).all (!structural ·) = true) : Worded (.word (c :: cs))
  | string (value : String) : Worded (.string value)
  | array {values : List JsonText} (all : ∀ value ∈ values, Worded value) : Worded (.array values)
  | object {members : List (String × JsonText)} (all : ∀ entry ∈ members, Worded entry.2) : Worded (.object members)

/-- What follows a value: nothing, or a structural character. -/
def Ended (s : List Char) : Prop := ∀ c ∈ s.head?, structural c = true

theorem word_readable {a b s t : List Char} (plainA : a.all (!structural ·) = true) (plainB : b.all (!structural ·) = true)
    (endedA : Ended s) (endedB : Ended t) (same : a ++ s = b ++ t) : a = b ∧ s = t := by
  have first {w r : List Char} (plain : w.all (!structural ·) = true) (ended : Ended r) :
      (w ++ r).takeWhile (!structural ·) = w := by
    rw [List.takeWhile_append_of_pos (by simpa using plain)]
    cases r with
    | nil => simp
    | cons c r => simp [ended c rfl]
  have words := congrArg (List.takeWhile (!structural ·)) same
  rw [first plainA endedA, first plainB endedB] at words
  subst words
  exact ⟨rfl, List.append_cancel_left same⟩

/-- A text does not start with a closing bracket, and its first character tells its kind. -/
theorem Worded.first {a : JsonText} (worded : Worded a) : ∃ c cs, a.characters = c :: cs ∧
    (c = '"' ↔ ∃ value, a = .string value) ∧ (c = '[' ↔ ∃ values, a = .array values) ∧
      (c = '\x7b' ↔ ∃ members, a = .object members) ∧ c ≠ ']' ∧ c ≠ '\x7d' := by
  cases worded with
  | word plain =>
      rename_i c cs
      have apart : structural c = false := by simpa using (List.all_eq_true.mp plain) c List.mem_cons_self
      refine ⟨c, cs, by rw [characters], ?_⟩
      unfold structural at apart
      simp only [Bool.or_eq_false_iff, beq_eq_false_iff_ne] at apart
      simp [apart]
  | string value => exact ⟨'"', _, by rw [characters]; rfl, by simp⟩
  | array all =>
      rename_i values
      cases values with
      | nil => exact ⟨'[', _, by rw [characters], by simp⟩
      | cons => exact ⟨'[', _, by rw [characters], by simp⟩
  | object all =>
      rename_i members
      cases members with
      | nil => exact ⟨'\x7b', _, by rw [characters], by simp⟩
      | cons => exact ⟨'\x7b', _, by rw [characters], by simp⟩

theorem ended_moreValues (values : List JsonText) (s : List Char) : Ended (moreValues values ++ s) := by
  intro c first
  cases values with
  | nil =>
      rw [moreValues] at first
      cases first
      rfl
  | cons value values =>
      rw [moreValues] at first
      cases first
      rfl

theorem ended_moreMembers (members : List (String × JsonText)) (s : List Char) : Ended (moreMembers members ++ s) := by
  intro c first
  cases members with
  | nil =>
      rw [moreMembers] at first
      cases first
      rfl
  | cons entry members =>
      obtain ⟨name, value⟩ := entry
      rw [moreMembers] at first
      cases first
      rfl

theorem Worded.values {values : List JsonText} (worded : Worded (.array values)) : ∀ value ∈ values, Worded value := by
  cases worded with
  | array all => exact all

theorem Worded.members {members : List (String × JsonText)} (worded : Worded (.object members)) :
    ∀ entry ∈ members, Worded entry.2 := by
  cases worded with
  | object all => exact all

theorem Worded.plain {cs : List Char} (worded : Worded (.word cs)) : cs.all (!structural ·) = true := by
  cases worded with
  | word plain => exact plain

/-- Two texts that start the same are of one kind. -/
theorem same_first {a b : JsonText} {s t : List Char} (wordedA : Worded a) (wordedB : Worded b)
    (same : a.characters ++ s = b.characters ++ t) :
    ((∃ value, a = .string value) ↔ ∃ value, b = .string value) ∧ ((∃ values, a = .array values) ↔ ∃ values, b = .array values) ∧
      ((∃ members, a = .object members) ↔ ∃ members, b = .object members) := by
  obtain ⟨c, cs, splitA, stringA, arrayA, objectA, -⟩ := wordedA.first
  obtain ⟨d, ds, splitB, stringB, arrayB, objectB, -⟩ := wordedB.first
  rw [splitA, splitB] at same
  injection same with heads _
  subst heads
  exact ⟨stringA.symm.trans stringB, arrayA.symm.trans arrayB, objectA.symm.trans objectB⟩

mutual
/-- A text and what follows it are read in one way. -/
theorem readable : ∀ (a b : JsonText) (s t : List Char), Worded a → Worded b → Ended s → Ended t →
    a.characters ++ s = b.characters ++ t → a = b ∧ s = t
  | .word cs, b, s, t, wordedA, wordedB, endedA, endedB, same => by
      have kinds := same_first wordedA wordedB same
      cases b with
      | word ds =>
          rw [characters, characters] at same
          obtain ⟨rfl, rfl⟩ := word_readable wordedA.plain wordedB.plain endedA endedB same
          exact ⟨rfl, rfl⟩
      | string | array | object => simp at kinds
  | .string value, b, s, t, wordedA, wordedB, endedA, endedB, same => by
      have kinds := same_first wordedA wordedB same
      cases b with
      | string other =>
          rw [characters, characters] at same
          obtain ⟨rfl, rfl⟩ := quoted_readable same
          exact ⟨rfl, rfl⟩
      | word | array | object => simp at kinds
  | .array values, b, s, t, wordedA, wordedB, endedA, endedB, same => by
      have kinds := same_first wordedA wordedB same
      cases b with
      | array others =>
          cases values with
          | nil =>
              cases others with
              | nil => simpa [characters] using same
              | cons b others =>
                  obtain ⟨c, cs, split, -, -, -, notClosing, -⟩ := (wordedB.values b List.mem_cons_self).first
                  simp only [characters, split, List.cons_append, List.cons.injEq, true_and] at same
                  exact absurd same.1.symm notClosing
          | cons a values =>
              cases others with
              | nil =>
                  obtain ⟨c, cs, split, -, -, -, notClosing, -⟩ := (wordedA.values a List.mem_cons_self).first
                  simp only [characters, split, List.cons_append, List.cons.injEq, true_and] at same
                  exact absurd same.1 notClosing
              | cons b others =>
                  rw [characters, characters] at same
                  simp only [List.cons_append, List.append_assoc, List.cons.injEq, true_and] at same
                  obtain ⟨firstA, restA⟩ := List.forall_mem_cons.mp wordedA.values
                  obtain ⟨firstB, restB⟩ := List.forall_mem_cons.mp wordedB.values
                  obtain ⟨rfl, rest⟩ := readable a b _ _ firstA firstB (ended_moreValues values s) (ended_moreValues others t) same
                  obtain ⟨rfl, rfl⟩ := readableValues values others s t restA restB rest
                  exact ⟨rfl, rfl⟩
      | word | string | object => simp at kinds
  | .object members, b, s, t, wordedA, wordedB, endedA, endedB, same => by
      have kinds := same_first wordedA wordedB same
      cases b with
      | object others =>
          cases members with
          | nil =>
              cases others with
              | nil => simpa [characters] using same
              | cons entry others => simp [characters, quoted] at same
          | cons entry members =>
              cases others with
              | nil => simp [characters, quoted] at same
              | cons other others =>
                  obtain ⟨name, a⟩ := entry
                  obtain ⟨otherName, b⟩ := other
                  rw [characters, characters] at same
                  simp only [List.cons_append, List.append_assoc, List.cons.injEq, true_and] at same
                  obtain ⟨rfl, afterName⟩ := quoted_readable same
                  injection afterName with _ afterColon
                  obtain ⟨firstA, restA⟩ := List.forall_mem_cons.mp wordedA.members
                  obtain ⟨firstB, restB⟩ := List.forall_mem_cons.mp wordedB.members
                  obtain ⟨rfl, rest⟩ := readable a b _ _ firstA firstB (ended_moreMembers members s) (ended_moreMembers others t)
                    afterColon
                  obtain ⟨rfl, rfl⟩ := readableMembers members others s t restA restB rest
                  exact ⟨rfl, rfl⟩
      | word | string | array => simp at kinds

theorem readableValues : ∀ (as bs : List JsonText) (s t : List Char), (∀ value ∈ as, Worded value) →
    (∀ value ∈ bs, Worded value) → moreValues as ++ s = moreValues bs ++ t → as = bs ∧ s = t
  | [], bs, s, t, wordedA, wordedB, same => by
      cases bs with
      | nil => simpa [moreValues] using same
      | cons b bs => simp [moreValues] at same
  | a :: as, bs, s, t, wordedA, wordedB, same => by
      cases bs with
      | nil => simp [moreValues] at same
      | cons b bs =>
          rw [moreValues, moreValues] at same
          simp only [List.cons_append, List.append_assoc, List.cons.injEq, true_and] at same
          obtain ⟨firstA, restA⟩ := List.forall_mem_cons.mp wordedA
          obtain ⟨firstB, restB⟩ := List.forall_mem_cons.mp wordedB
          obtain ⟨rfl, rest⟩ := readable a b _ _ firstA firstB (ended_moreValues as s) (ended_moreValues bs t) same
          obtain ⟨rfl, rfl⟩ := readableValues as bs s t restA restB rest
          exact ⟨rfl, rfl⟩

theorem readableMembers : ∀ (as bs : List (String × JsonText)) (s t : List Char), (∀ entry ∈ as, Worded entry.2) →
    (∀ entry ∈ bs, Worded entry.2) → moreMembers as ++ s = moreMembers bs ++ t → as = bs ∧ s = t
  | [], bs, s, t, wordedA, wordedB, same => by
      cases bs with
      | nil => simpa [moreMembers] using same
      | cons b bs => simp [moreMembers] at same
  | (name, a) :: as, bs, s, t, wordedA, wordedB, same => by
      cases bs with
      | nil => simp [moreMembers] at same
      | cons entry bs =>
          obtain ⟨other, b⟩ := entry
          rw [moreMembers, moreMembers] at same
          simp only [List.cons_append, List.append_assoc, List.cons.injEq, true_and] at same
          obtain ⟨rfl, afterName⟩ := quoted_readable same
          injection afterName with _ afterColon
          obtain ⟨firstA, restA⟩ := List.forall_mem_cons.mp wordedA
          obtain ⟨firstB, restB⟩ := List.forall_mem_cons.mp wordedB
          obtain ⟨rfl, rest⟩ := readable a b _ _ firstA firstB (ended_moreMembers as s) (ended_moreMembers bs t) afterColon
          obtain ⟨rfl, rfl⟩ := readableMembers as bs s t restA restB rest
          exact ⟨rfl, rfl⟩
end

end JsonText
