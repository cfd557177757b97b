import AppPilotKit.Lib.Sorting
import AppPilotKit.Semantic.Canonical

/-! # Where the canonical bytes agree

Both writers put the same tree into words. The bytes of a document are the same on both
platforms exactly when each of its integers is spelled alike and the members of each of
its objects are ordered alike.
-/

namespace AppPilotKit.Semantic

open Snapshot (JSONValue Double)
open JsonText (Worded structural)

/-! ## Words -/

/-- A text without structural characters. -/
def Plain (text : List Char) : Prop := ∀ c ∈ text, structural c = false

theorem worded_of_plain {text : List Char} (some : text ≠ []) (plain : Plain text) : Worded (.word text) := by
  obtain ⟨c, cs, rfl⟩ := List.exists_cons_of_ne_nil some
  refine .word ?_
  rw [List.all_eq_true]
  intro d member
  rw [plain d member]
  rfl

theorem Plain.append {a b : List Char} (plainA : Plain a) (plainB : Plain b) : Plain (a ++ b) := by
  intro c member
  rcases List.mem_append.mp member with inside | inside
  · exact plainA c inside
  · exact plainB c inside

theorem Plain.subset {a b : List Char} (plain : Plain b) (subset : a ⊆ b) : Plain a :=
  fun c member => plain c (subset member)

theorem isDigit_plain {c : Char} (isDigit : c.isDigit = true) : structural c = false ∧ c ≠ '.' := by
  have bounds : 48 ≤ c.toNat ∧ c.toNat ≤ 57 := by
    simp only [Char.isDigit, Bool.and_eq_true, decide_eq_true_eq] at isDigit
    exact ⟨isDigit.1, isDigit.2⟩
  have apart {d : Char} (far : d.toNat < 48 ∨ 57 < d.toNat) : c ≠ d := by
    rintro rfl
    omega
  constructor
  · unfold structural
    simp only [Bool.or_eq_false_iff, beq_eq_false_iff_ne]
    refine ⟨⟨⟨⟨⟨⟨?_, ?_⟩, ?_⟩, ?_⟩, ?_⟩, ?_⟩, ?_⟩ <;> exact apart (by decide)
  · exact apart (by decide)

theorem digitsOf_spec (n : Nat) : digitsOf n ≠ [] ∧ ∀ c ∈ digitsOf n, c.isDigit = true := by
  unfold digitsOf
  rw [Nat.toString_eq_repr, Nat.toList_repr]
  exact ⟨Nat.toDigits_ne_nil, fun c member => Nat.isDigit_of_mem_toDigits (by decide) (by decide) member⟩

theorem plain_digits (n : Nat) : Plain (digitsOf n) :=
  fun c member => (isDigit_plain ((digitsOf_spec n).2 c member)).1

theorem plain_zeros (count : Nat) : Plain (zeros count) := by
  intro c member
  rw [List.eq_of_mem_replicate member]
  rfl

theorem plain_literal (literal : Literal) : literal.text.toList ≠ [] ∧ Plain literal.text.toList := by
  unfold Literal.text
  rw [String.toList_append]
  refine ⟨?_, Plain.append ?_ (plain_digits _)⟩
  · intro empty
    exact (digitsOf_spec literal.magnitude).1 (List.append_eq_nil_iff.mp empty).2
  · cases literal.negative with
    | true => simp [Plain, structural]
    | false => simp [Plain]

theorem toString_int (value : Int) :
    toString value = Literal.text { negative := decide (value < 0), magnitude := value.natAbs } := by
  rw [Int.toString_eq_repr]
  cases value with
  | ofNat n =>
      have positive : ¬ (n : Int) < 0 := by omega
      simp [Literal.text, Int.repr, positive]
  | negSucc n => simp [Literal.text, Int.repr]

theorem plain_int (value : Int) : (toString value).toList ≠ [] ∧ Plain (toString value).toList := by
  rw [toString_int]
  exact plain_literal _

/-! ## ECMAScript numbers -/

theorem Plain.cons {c : Char} {cs : List Char} (first : structural c = false) (plain : Plain cs) : Plain (c :: cs) :=
  List.forall_mem_cons.mpr ⟨first, plain⟩

theorem Plain.nil : Plain [] := by
  intro c member
  cases member

/-- The text starts with something else than a point. -/
def StartsPlain (text : List Char) : Prop := ∃ c cs, text = c :: cs ∧ c ≠ '.'

theorem starts_digits {digits : List Char} (some : digits ≠ []) (all : ∀ c ∈ digits, c.isDigit = true) :
    StartsPlain digits := by
  obtain ⟨c, cs, rfl⟩ := List.exists_cons_of_ne_nil some
  exact ⟨c, cs, rfl, (isDigit_plain (all c List.mem_cons_self)).2⟩

theorem StartsPlain.append {a : List Char} (starts : StartsPlain a) (b : List Char) : StartsPlain (a ++ b) := by
  obtain ⟨c, cs, rfl, other⟩ := starts
  exact ⟨c, cs ++ b, rfl, other⟩

theorem StartsPlain.take {a : List Char} (starts : StartsPlain a) {n : Nat} (positive : 0 < n) : StartsPlain (a.take n) := by
  obtain ⟨c, cs, rfl, other⟩ := starts
  obtain ⟨m, rfl⟩ := Nat.exists_eq_succ_of_ne_zero positive.ne'
  exact ⟨c, cs.take m, rfl, other⟩

theorem plain_exponential {digits : List Char} (starts : StartsPlain digits) (plain : Plain digits) (exponent : Int) :
    StartsPlain (exponential digits exponent) ∧ Plain (exponential digits exponent) := by
  unfold exponential
  dsimp only
  constructor
  · exact ((((starts.take Nat.one_pos).append _).append _).append _).append _
  · refine (((Plain.append (plain.subset (List.take_subset _ _)) ?_).append ?_).append (plain_zeros _)).append (plain_digits _)
    · split
      · exact .nil
      · exact .cons rfl (plain.subset (List.drop_subset _ _))
    · exact .cons rfl (.cons (by split <;> rfl) .nil)

theorem plain_positional {digits : List Char} (starts : StartsPlain digits) (plain : Plain digits) (point : Int) :
    StartsPlain (positional digits point) ∧ Plain (positional digits point) := by
  unfold positional
  split
  · refine ⟨⟨'0', _, rfl, by decide⟩, ?_⟩
    exact ((Plain.cons rfl (.cons rfl .nil)).append (plain_zeros _)).append plain
  · split
    · refine ⟨(starts.append _).append _, ?_⟩
      exact (plain.append (plain_zeros _)).append (.cons rfl (.cons rfl .nil))
    · refine ⟨(starts.take (by omega)).append _, ?_⟩
      exact (plain.subset (List.take_subset _ _)).append (.cons rfl (plain.subset (List.drop_subset _ _)))

theorem plain_description (value : ℚ) : StartsPlain (description value) ∧ Plain (description value) := by
  unfold description
  dsimp only
  obtain ⟨some, all⟩ := digitsOf_spec (Binary64.shortest |value|).digits
  have magnitude : ∀ {text : List Char}, StartsPlain text ∧ Plain text →
      StartsPlain ((if value < 0 then ['-'] else []) ++ text) ∧ Plain ((if value < 0 then ['-'] else []) ++ text) := by
    rintro text ⟨starts, plain⟩
    split
    · exact ⟨⟨'-', text, rfl, by decide⟩, .cons rfl plain⟩
    · exact ⟨starts, plain⟩
  refine magnitude ?_
  split
  · exact plain_exponential (starts_digits some all) (plain_digits _) _
  · exact plain_positional (starts_digits some all) (plain_digits _) _

theorem plain_dropPointZero {raw : List Char} (starts : StartsPlain raw) (plain : Plain raw) :
    dropPointZero raw ≠ [] ∧ Plain (dropPointZero raw) := by
  unfold dropPointZero
  split
  · rename_i suffix
    obtain ⟨before, rfl⟩ := List.isSuffixOf_iff_suffix.mp suffix
    have drop : (before ++ ['.', '0']).dropLast.dropLast = before := by simp
    rw [drop]
    refine ⟨?_, plain.subset (List.subset_append_left _ _)⟩
    rintro rfl
    obtain ⟨c, cs, split, other⟩ := starts
    cases split
    exact other rfl
  · refine ⟨?_, plain⟩
    obtain ⟨c, cs, rfl, -⟩ := starts
    simp

theorem plain_placed {digits : List Char} (plain : Plain digits) (integerDigits : Int) :
    (if integerDigits ≤ 0 then ['0', '.'] ++ zeros (-integerDigits).toNat ++ digits
      else if digits.length ≤ integerDigits then digits ++ zeros (integerDigits - digits.length).toNat
      else digits.take integerDigits.toNat ++ '.' :: digits.drop integerDigits.toNat) ≠ [] ∧
    Plain (if integerDigits ≤ 0 then ['0', '.'] ++ zeros (-integerDigits).toNat ++ digits
      else if digits.length ≤ integerDigits then digits ++ zeros (integerDigits - digits.length).toNat
      else digits.take integerDigits.toNat ++ '.' :: digits.drop integerDigits.toNat) := by
  split
  · exact ⟨by simp, ((Plain.cons rfl (.cons rfl .nil)).append (plain_zeros _)).append plain⟩
  · split
    · refine ⟨fun empty => ?_, plain.append (plain_zeros _)⟩
      have short := congrArg List.length empty
      simp only [zeros, List.length_append, List.length_replicate, List.length_nil] at short
      omega
    · refine ⟨by simp, (plain.subset (List.take_subset _ _)).append (.cons rfl (plain.subset (List.drop_subset _ _)))⟩

theorem plain_expand {raw : List Char} (starts : StartsPlain raw) (plain : Plain raw) :
    expandScientificNumber raw ≠ [] ∧ Plain (expandScientificNumber raw) := by
  unfold expandScientificNumber
  split
  · exact plain_dropPointZero starts plain
  · dsimp only
    have mantissa : Plain (raw.takeWhile (· ≠ 'e')) := plain.subset (List.takeWhile_subset _)
    split
    · obtain ⟨-, placed⟩ := plain_placed ((mantissa.subset (List.tail_subset _)).subset
        (List.filter_subset' _)) _
      exact ⟨by simp, .cons rfl placed⟩
    · exact plain_placed (mantissa.subset (List.filter_subset' _)) _

theorem plain_normalize {raw : List Char} (starts : StartsPlain raw) (plain : Plain raw) :
    normalizeScientificNumber raw ≠ [] ∧ Plain (normalizeScientificNumber raw) := by
  unfold normalizeScientificNumber
  split
  · exact plain_dropPointZero starts plain
  · dsimp only
    have mantissa : Plain (raw.takeWhile (· ≠ 'e')) := plain.subset (List.takeWhile_subset _)
    have dropped : Plain (dropPointZero (raw.takeWhile (· ≠ 'e'))) := by
      unfold dropPointZero
      split
      · exact (mantissa.subset (List.dropLast_subset _)).subset (List.dropLast_subset _)
      · exact mantissa
    refine ⟨by simp, ((dropped.append (.cons rfl .nil)).append ?_).append (plain_digits _)⟩
    split
    · exact .cons rfl .nil
    · exact .cons rfl .nil

theorem plain_ecmaNumber {value : Double} {text : List Char} (ok : ecmaNumber value = .ok text) : text ≠ [] ∧ Plain text := by
  unfold ecmaNumber at ok
  split at ok
  · cases ok
  · rename_i number
    obtain ⟨starts, plain⟩ := plain_description number
    split at ok
    · cases ok
      exact ⟨by simp, .cons rfl .nil⟩
    · split at ok
      · cases ok
        exact plain_expand starts plain
      · cases ok
        exact plain_normalize starts plain

/-! ## Texts of both platforms -/

variable {unicode : Normalization}

theorem sortedFields_perm (unicode : Normalization) {β : Type} (members : List (String × β)) : List.Perm (sortedFields unicode members) members :=
  List.perm_insertionSort _ members

theorem sortedEntries_perm {β : Type} (members : List (String × β)) : List.Perm (sortedEntries members) members :=
  List.perm_insertionSort _ members

theorem worded_bool (value : Bool) : Worded (.word (toString value).toList) := by
  cases value with
  | true => exact .word (by decide)
  | false => exact .word (by decide)

mutual
theorem canonicalText_worded : ∀ (value : JSONValue) (text : JsonText), canonicalText unicode value = .ok text → Worded text
  | .null, text, ok => by
      cases ok
      exact .word (by decide)
  | .bool value, text, ok => by
      cases ok
      exact worded_bool value
  | .integer value, text, ok => by
      cases ok
      exact worded_of_plain (plain_int value).1 (plain_int value).2
  | .unsignedInteger value, text, ok => by
      cases ok
      exact worded_of_plain (digitsOf_spec value).1 (plain_digits value)
  | .number value, text, ok => by
      rw [canonicalText, Checks.map_ok] at ok
      obtain ⟨word, spelled, rfl⟩ := ok
      obtain ⟨some, plain⟩ := plain_ecmaNumber spelled
      exact worded_of_plain some plain
  | .string value, text, ok => by
      cases ok
      exact .string value
  | .array values, text, ok => by
      rw [canonicalText, Checks.map_ok] at ok
      obtain ⟨texts, written, rfl⟩ := ok
      exact .array (canonicalValues_worded values texts written)
  | .object fields, text, ok => by
      rw [canonicalText, Checks.map_ok] at ok
      obtain ⟨texts, written, rfl⟩ := ok
      refine .object fun entry member => ?_
      exact canonicalFields_worded fields texts written entry ((sortedFields_perm unicode texts).mem_iff.mp member)

theorem canonicalValues_worded : ∀ (values : List JSONValue) (texts : List JsonText),
    canonicalValues unicode values = .ok texts → ∀ text ∈ texts, Worded text
  | [], texts, ok => by
      cases ok
      simp
  | value :: values, texts, ok => by
      rw [canonicalValues, Checks.bind_ok] at ok
      obtain ⟨text, first, more⟩ := ok
      obtain ⟨rest, others, same⟩ := Checks.bind_ok.mp more
      cases same
      exact List.forall_mem_cons.mpr ⟨canonicalText_worded value text first, canonicalValues_worded values rest others⟩

theorem canonicalFields_worded : ∀ (fields : List (String × JSONValue)) (texts : List (String × JsonText)),
    canonicalFields unicode fields = .ok texts → ∀ entry ∈ texts, Worded entry.2
  | [], texts, ok => by
      cases ok
      simp
  | (name, value) :: fields, texts, ok => by
      rw [canonicalFields, Checks.bind_ok] at ok
      obtain ⟨text, first, more⟩ := ok
      obtain ⟨rest, others, same⟩ := Checks.bind_ok.mp more
      cases same
      exact List.forall_mem_cons.mpr ⟨canonicalText_worded value text first, canonicalFields_worded fields rest others⟩
end

mutual
theorem wireJson_worded : ∀ json : Json, Worded (wireJson json)
  | .null => .word (by decide)
  | .bool value => worded_bool value
  | .integer literal => worded_of_plain (plain_literal _).1 (plain_literal _).2
  | .string value => .string value
  | .array values => .array (wireValues_worded values)
  | .object members => .object (wireMembers_worded members)

theorem wireValues_worded : ∀ (values : List Json), ∀ text ∈ wireValues values, Worded text
  | [] => by simp [wireValues]
  | value :: values => by
      rw [wireValues]
      exact List.forall_mem_cons.mpr ⟨wireJson_worded value, wireValues_worded values⟩

theorem wireMembers_worded : ∀ (members : List (String × Json)), ∀ entry ∈ wireMembers members, Worded entry.2
  | [] => by simp [wireMembers]
  | (name, value) :: members => by
      rw [wireMembers]
      exact List.forall_mem_cons.mpr ⟨wireJson_worded value, wireMembers_worded members⟩
end

theorem codeUnits_readable {c d : Char} {s t : List Nat} (same : codeUnits c ++ s = codeUnits d ++ t) : c = d ∧ s = t := by
  have valid (e : Char) : e.toNat < 0xD800 ∨ 0xDFFF < e.toNat ∧ e.toNat < 0x110000 := e.valid
  have equal (toNat : c.toNat = d.toNat) : c = d := Char.toNat_inj.mp toNat
  have validC := valid c
  have validD := valid d
  unfold codeUnits at same
  split at same
  · split at same
    · injection same with units rest
      exact ⟨equal units, rest⟩
    · injection same with units rest
      omega
  · split at same
    · injection same with units rest
      omega
    · injection same with high rest
      injection rest with low rest
      exact ⟨equal (by omega), rest⟩

theorem kotlinKey_injective {a b : String} (same : kotlinKey a = kotlinKey b) : a = b := by
  have characters : ∀ s t : List Char, s.flatMap codeUnits = t.flatMap codeUnits → s = t := by
    intro s
    induction s with
    | nil =>
        intro t units
        cases t with
        | nil => rfl
        | cons d t =>
            rw [List.flatMap_cons] at units
            unfold codeUnits at units
            split at units <;> cases units
    | cons c s ih =>
        intro t units
        cases t with
        | nil =>
            rw [List.flatMap_cons] at units
            unfold codeUnits at units
            split at units <;> cases units
        | cons d t =>
            rw [List.flatMap_cons, List.flatMap_cons] at units
            obtain ⟨rfl, rest⟩ := codeUnits_readable units
            rw [ih t rest]
  exact String.ext (characters _ _ same)

theorem swiftKey_eq {a b : String} : swiftKey unicode a = swiftKey unicode b ↔ unicode.nfc a = unicode.nfc b := by
  unfold swiftKey
  rw [List.map_inj_right (fun _ _ => Char.toNat_inj.mp)]
  exact String.toList_inj

theorem toString_value (literal : Literal) : toString literal.value = (canonicalNumber literal).text := by
  rw [toString_int]
  unfold canonicalNumber
  obtain ⟨negative, magnitude⟩ := literal
  by_cases zero : magnitude = 0
  · subst zero
    cases negative <;> rfl
  · rw [if_neg zero]
    cases negative with
    | true => simp [Literal.value, Nat.pos_of_ne_zero zero]
    | false =>
        have positive : ¬ (magnitude : Int) < 0 := by omega
        simp [Literal.value, positive]

/-- The members of an object of a document: distinct names, none of them empty. -/
def Named (members : List (String × Json)) : Prop :=
  (members.map Prod.fst).Nodup ∧ ∀ entry ∈ members, entry.1 ≠ ""

/-- The two orders of names agree on the members. -/
def OrderedAlike (unicode : Normalization) (members : List (String × Json)) : Prop :=
  ∀ a ∈ members, ∀ b ∈ members, swiftKey unicode a.1 ≤ swiftKey unicode b.1 ↔ kotlinKey a.1 ≤ kotlinKey b.1

theorem OrderedAlike.unambiguous {members : List (String × Json)} (alike : OrderedAlike unicode members)
    (named : Named members) : Keyed.Unambiguous unicode.nfc members := by
  have distinct : members.Pairwise fun a b => a.1 ≠ b.1 := List.pairwise_map.mp named.1
  refine distinct.imp_of_mem fun {a b} memberA memberB apart same => apart ?_
  have keys := swiftKey_eq.mpr same
  refine kotlinKey_injective (le_antisymm ?_ ?_)
  · exact (alike a memberA b memberB).mp keys.le
  · exact (alike b memberB a memberA).mp keys.ge

/-- On text of one spelling normalisation changes nothing. -/
def oneSpelling : Normalization where
  nfc := id
  plain := fun _ _ _ same => same

end AppPilotKit.Semantic
