import AppPilotKit.Control.Packets

/-! # What the check of an item accepts

The check passes exactly over the items whose heads are in their shortest form, nested less
than 64 levels deep.
-/

namespace AppPilotKit.Control

open Wire Transport Cbor
open Broker (ControlFailure)

/-! ## Readers that succeed -/

section
variable {σ α β : Type} {s s' : σ} {x : Reader σ α} {f : α → Reader σ β} {b : β}

theorem bind_ok : (x >>= f) s = .ok (b, s') ↔ ∃ a m, x s = .ok (a, m) ∧ f a m = .ok (b, s') := by
  have unfolded : (x >>= f) s = (x s >>= fun found => f found.1 found.2) := rfl
  rw [unfolded, Checks.bind_ok]
  exact ⟨fun ⟨found, h⟩ => ⟨found.1, found.2, h⟩, fun ⟨a, m, h⟩ => ⟨(a, m), h⟩⟩

theorem pure_ok {a b : α} : (pure a : Reader σ α) s = .ok (b, s') ↔ b = a ∧ s' = s := by
  constructor
  · intro h
    cases h
    exact ⟨rfl, rfl⟩
  · rintro ⟨rfl, rfl⟩
    rfl

theorem reject_ok {reason : CloseReason} {a : α} : ¬ (reject reason : Reader σ α) s = .ok (a, s') := nofun

theorem require_ok {holds : Prop} [Decidable holds] {reason : CloseReason} {u : Unit} :
    require holds reason s = .ok (u, s') ↔ holds ∧ s' = s := by
  unfold require
  split
  · rename_i held
    rw [pure_ok]
    exact ⟨fun h => ⟨held, h.2⟩, fun h => ⟨rfl, h.2⟩⟩
  · rename_i failed
    exact ⟨nofun, fun h => absurd h.1 failed⟩

end

/-! ## Steps of the check -/

/-- A cursor has passed over some bytes. -/
def Past (passed : Bytes) (c c' : Cursor) : Prop :=
  c.rest = passed ++ c'.rest ∧ c'.offset = c.offset + passed.length

section
variable {c c' m : Cursor}

theorem Past.nil : Past [] c c := ⟨rfl, rfl⟩

theorem Past.nil_iff : Past [] c c' ↔ c' = c := by
  constructor
  · rintro ⟨rest, offset⟩
    cases c
    cases c'
    cases rest
    cases offset
    rfl
  · rintro rfl
    exact Past.nil

theorem Past.append_iff {front back : Bytes} : Past (front ++ back) c c' ↔ ∃ m, Past front c m ∧ Past back m c' := by
  constructor
  · rintro ⟨rest, offset⟩
    refine ⟨⟨c.offset + front.length, back ++ c'.rest⟩, ⟨?_, rfl⟩, rfl, ?_⟩
    · rw [rest, List.append_assoc]
    · rw [offset, List.length_append, Nat.add_assoc]
  · rintro ⟨m, first, second⟩
    exact ⟨by rw [first.1, second.1, List.append_assoc], by rw [second.2, first.2, List.length_append, Nat.add_assoc]⟩

theorem Past.cons_iff {byte : UInt8} {back : Bytes} : Past (byte :: back) c c' ↔ ∃ m, Past [byte] c m ∧ Past back m c' := by
  rw [← List.singleton_append]
  exact Past.append_iff

/-- What has been passed and what is left stay the same together. -/
theorem Past.total {passed : Bytes} (past : Past passed c c') : c'.offset + c'.rest.length = c.offset + c.rest.length := by
  rw [past.1, past.2, List.length_append, Nat.add_assoc]

theorem take_ok {byte : UInt8} : take c = .ok (byte, c') ↔ Past [byte] c c' := by
  unfold take
  split
  · rename_i none
    constructor
    · nofun
    · rintro ⟨rest, -⟩
      rw [none] at rest
      cases rest
  · rename_i first rest some
    constructor
    · intro h
      cases h
      exact ⟨some, rfl⟩
    · rintro ⟨left, offset⟩
      rw [some] at left
      cases left
      cases c'
      cases offset
      rfl

theorem takes_ok {n : Nat} {raw : Bytes} : takes n c = .ok (raw, c') ↔ raw.length = n ∧ Past raw c c' := by
  induction n generalizing c raw with
  | zero =>
      rw [takes, pure_ok, List.length_eq_zero_iff]
      constructor
      · rintro ⟨rfl, rfl⟩
        exact ⟨rfl, Past.nil⟩
      · rintro ⟨rfl, past⟩
        exact ⟨rfl, Past.nil_iff.mp past⟩
  | succ n ih =>
      rw [takes, bind_ok]
      constructor
      · rintro ⟨byte, m, first, h⟩
        obtain ⟨others, m', rest, h⟩ := bind_ok.mp h
        obtain ⟨rfl, rfl⟩ := pure_ok.mp h
        obtain ⟨length, past⟩ := ih.mp rest
        exact ⟨by rw [List.length_cons, length], Past.cons_iff.mpr ⟨m, take_ok.mp first, past⟩⟩
      · rintro ⟨length, past⟩
        cases raw with
        | nil => cases length
        | cons byte others =>
            obtain ⟨m, first, rest⟩ := Past.cons_iff.mp past
            refine ⟨byte, m, take_ok.mpr first, bind_ok.mpr ⟨others, c', ih.mpr ⟨?_, rest⟩, rfl⟩⟩
            exact Nat.succ.inj length

theorem slice_ok {n : Nat} {value : Bytes} :
    slice n c = .ok (value, c') ↔ value.length = n ∧ Past value c c' ∧ c.offset + n < 2 ^ 64 := by
  unfold slice
  split
  · rename_i large
    exact ⟨nofun, fun ⟨_, _, small⟩ => absurd small (by omega)⟩
  · rename_i small
    split
    · rename_i enough
      constructor
      · intro h
        cases h
        have length := List.length_take_of_le enough
        exact ⟨length, ⟨(List.take_append_drop n c.rest).symm, by rw [length]⟩, by omega⟩
      · rintro ⟨rfl, ⟨rest, offset⟩, -⟩
        cases c'
        cases offset
        dsimp only at rest ⊢
        rw [rest, List.take_left, List.drop_left]
        rfl
    · rename_i short
      constructor
      · nofun
      · rintro ⟨rfl, ⟨rest, -⟩, -⟩
        rw [rest, List.length_append] at short
        omega

theorem wideArgument_ok {width minimum n : Nat} :
    wideArgument width minimum c = .ok (n, c') ↔ minimum ≤ n ∧ n < 256 ^ width ∧ Past (be width n) c c' := by
  unfold wideArgument
  rw [bind_ok]
  constructor
  · rintro ⟨raw, m, read, checked⟩
    obtain ⟨length, past⟩ := takes_ok.mp read
    obtain ⟨_, m', required, done⟩ := bind_ok.mp checked
    obtain ⟨enough, rfl⟩ := require_ok.mp required
    obtain ⟨rfl, rfl⟩ := pure_ok.mp done
    refine ⟨enough, length ▸ beNat_lt raw, ?_⟩
    rw [← length, be_beNat]
    exact past
  · rintro ⟨enough, small, past⟩
    have value := beNat_be width n small
    refine ⟨be width n, c', takes_ok.mpr ⟨be_length width n, past⟩, ?_⟩
    rw [value]
    exact bind_ok.mpr ⟨(), c', require_ok.mpr ⟨enough, rfl⟩, rfl⟩

theorem wideArgument_shortest {width minimum low n : Nat} (wide : trail low n = be width n)
    (shortest : minimum ≤ n ∧ n < 256 ^ width ↔ info n = low ∧ n < 2 ^ 64) :
    wideArgument width minimum c = .ok (n, c') ↔ info n = low ∧ n < 2 ^ 64 ∧ Past (trail low n) c c' := by
  rw [wideArgument_ok, ← and_assoc, shortest, and_assoc, wide]

/-- The argument of a head is read only in its shortest form. -/
theorem readArgument_ok {low n : Nat} :
    readArgument low c = .ok (n, c') ↔ info n = low ∧ n < 2 ^ 64 ∧ Past (trail low n) c c' := by
  unfold readArgument
  split
  · refine wideArgument_shortest rfl ?_
    unfold info
    split_ifs <;> omega
  · refine wideArgument_shortest rfl ?_
    unfold info
    split_ifs <;> omega
  · refine wideArgument_shortest rfl ?_
    unfold info
    split_ifs <;> omega
  · refine wideArgument_shortest rfl ?_
    unfold info
    split_ifs <;> omega
  · rename_i not24 not25 not26 not27
    have fewer : info n = low → info n = n ∧ n < 24 := by
      rintro rfl
      unfold info at not24 not25 not26 not27 ⊢
      split_ifs at not24 not25 not26 not27 ⊢ <;> simp_all
    split
    · rename_i small
      rw [pure_ok, trail, if_pos (by omega), Past.nil_iff]
      constructor
      · rintro ⟨rfl, stays⟩
        refine ⟨?_, by omega, stays⟩
        unfold info
        exact if_pos (by omega)
      · rintro ⟨same, -, stays⟩
        exact ⟨(fewer same).1.symm.trans same, stays⟩
    · rename_i large
      refine ⟨fun h => absurd h reject_ok, ?_⟩
      rintro ⟨same, -, -⟩
      have := fewer same
      omega

/-- A first byte and the argument that it announces are a head in its shortest form. -/
theorem head_ok {major n : Nat} (known : major < 8) :
    (∃ initial m, take c = .ok (initial, m) ∧ initial.toNat / 32 = major ∧
        readArgument (initial.toNat % 32) m = .ok (n, c')) ↔ n < 2 ^ 64 ∧ Past (head major n) c c' := by
  have low := info_lt n
  have first : (UInt8.ofNat (major * 32 + info n)).toNat = major * 32 + info n := by
    rw [UInt8.toNat_ofNat']
    omega
  rw [head_eq]
  constructor
  · rintro ⟨initial, m, taken, kind, read⟩
    obtain ⟨same, small, past⟩ := readArgument_ok.mp read
    have begins : UInt8.ofNat (major * 32 + info n) = initial := by
      apply UInt8.toNat_inj.mp
      rw [first]
      omega
    rw [begins, ← same] at *
    exact ⟨small, Past.cons_iff.mpr ⟨m, take_ok.mp taken, past⟩⟩
  · rintro ⟨small, past⟩
    obtain ⟨m, begins, rest⟩ := Past.cons_iff.mp past
    refine ⟨_, m, take_ok.mpr begins, by rw [first]; omega, ?_⟩
    rw [first, show (major * 32 + info n) % 32 = info n by omega]
    exact readArgument_ok.mpr ⟨rfl, small, rest⟩

/-! ## Items -/

/-- A check that passes exactly over some streams of tokens. -/
def PassesOver (check : Reader Cursor Unit) (Inner : List Token → Prop) : Prop :=
  ∀ c c', c.offset + c.rest.length < 2 ^ 64 →
    (check c = .ok ((), c') ↔ ∃ tokens, Inner tokens ∧ (∀ t ∈ tokens, t.Fits) ∧ Past (encodeAll tokens) c c')

theorem validateElements_ok {check : Reader Cursor Unit} {Inner : List Token → Prop} (inner : PassesOver check Inner) (count : Nat) :
    PassesOver (validateElements check count) (Elements Inner count) := by
  induction count with
  | zero =>
      intro c c' _
      rw [validateElements, pure_ok]
      constructor
      · rintro ⟨-, rfl⟩
        exact ⟨[], .nil, by simp, Past.nil⟩
      · rintro ⟨tokens, elements, -, past⟩
        cases elements
        exact ⟨rfl, Past.nil_iff.mp past⟩
  | succ count ih =>
      intro c c' small
      rw [validateElements, bind_ok]
      constructor
      · rintro ⟨_, m, first, rest⟩
        obtain ⟨item, held, fits, past⟩ := (inner c m small).mp first
        obtain ⟨others, more, fits', past'⟩ := (ih m c' (past.total ▸ small)).mp rest
        refine ⟨item ++ others, .cons held more, ?_, encodeAll_append item others ▸ Past.append_iff.mpr ⟨m, past, past'⟩⟩
        intro t member
        rcases List.mem_append.mp member with member | member
        · exact fits t member
        · exact fits' t member
      · rintro ⟨tokens, elements, fits, past⟩
        cases elements with
        | cons held more =>
            rw [encodeAll_append] at past
            obtain ⟨m, front, back⟩ := Past.append_iff.mp past
            refine ⟨(), m, (inner c m small).mpr ⟨_, held, fun t member => fits t (by simp [member]), front⟩, ?_⟩
            exact (ih m c' (front.total ▸ small)).mpr ⟨_, more, fun t member => fits t (by simp [member]), back⟩

theorem validateEntries_ok {check : Reader Cursor Unit} {Inner : List Token → Prop} (inner : PassesOver check Inner) (count : Nat)
    (previous : Option Nat) : PassesOver (validateEntries check count previous) (Entries Inner count previous) := by
  induction count generalizing previous with
  | zero =>
      intro c c' _
      rw [validateEntries, pure_ok]
      constructor
      · rintro ⟨-, rfl⟩
        exact ⟨[], .nil, by simp, Past.nil⟩
      · rintro ⟨tokens, entries, -, past⟩
        cases entries
        exact ⟨rfl, Past.nil_iff.mp past⟩
  | succ count ih =>
      intro c c' small
      rw [validateEntries]
      constructor
      · intro h
        obtain ⟨initial, m, taken, h₁⟩ := bind_ok.mp h
        obtain ⟨_, m₁, zero, h₂⟩ := bind_ok.mp h₁
        obtain ⟨kind, rfl⟩ := require_ok.mp zero
        obtain ⟨key, m₂, read, h₃⟩ := bind_ok.mp h₂
        obtain ⟨_, m₃, larger, h₄⟩ := bind_ok.mp h₃
        obtain ⟨after, rfl⟩ := require_ok.mp larger
        obtain ⟨_, m₄, first, rest⟩ := bind_ok.mp h₄
        obtain ⟨fit, begins⟩ := (head_ok (by decide)).mp ⟨initial, _, taken, kind, read⟩
        have small₂ := begins.total ▸ small
        obtain ⟨item, held, fits, past⟩ := (inner _ _ small₂).mp first
        obtain ⟨others, more, fits', past'⟩ := (ih (some key) _ _ (past.total ▸ small₂)).mp rest
        refine ⟨.uint key :: (item ++ others), .cons after held more, ?_, ?_⟩
        · intro t member
          rcases List.mem_cons.mp member with rfl | member
          · exact fit
          · rcases List.mem_append.mp member with member | member
            · exact fits t member
            · exact fits' t member
        · rw [encodeAll_cons, encodeAll_append]
          exact Past.append_iff.mpr ⟨_, begins, Past.append_iff.mpr ⟨_, past, past'⟩⟩
      · rintro ⟨tokens, entries, fits, past⟩
        cases entries with
        | cons after held more =>
            rename_i key item others
            rw [encodeAll_cons, encodeAll_append] at past
            obtain ⟨m, begins, past₁⟩ := Past.append_iff.mp past
            obtain ⟨m₁, front, back⟩ := Past.append_iff.mp past₁
            have fit : key < 2 ^ 64 := fits (.uint key) (by simp)
            have small₂ := begins.total ▸ small
            obtain ⟨initial, m', taken, kind, read⟩ := (head_ok (by decide)).mpr ⟨fit, begins⟩
            refine bind_ok.mpr ⟨initial, m', taken, bind_ok.mpr ⟨(), m', require_ok.mpr ⟨kind, rfl⟩, ?_⟩⟩
            refine bind_ok.mpr ⟨key, m, read, bind_ok.mpr ⟨(), m, require_ok.mpr ⟨after, rfl⟩, ?_⟩⟩
            refine bind_ok.mpr ⟨(), m₁, (inner _ _ small₂).mpr ⟨item, held, fun t member => fits t (by simp [member]), front⟩, ?_⟩
            exact (ih (some key) _ _ (front.total ▸ small₂)).mpr ⟨others, more, fun t member => fits t (by simp [member]), back⟩

/-- The check passes exactly over the items nested no deeper than its levels. -/
theorem validateItem_ok (levels : Nat) : PassesOver (validateItem levels) (IsItem levels) := by
  induction levels with
  | zero =>
      intro c c' _
      exact ⟨fun h => absurd h reject_ok, fun ⟨tokens, item, _⟩ => by cases item⟩
  | succ levels ih =>
      intro c c' small
      rw [validateItem]
      constructor
      · intro h
        obtain ⟨initial, m, taken, h₁⟩ := bind_ok.mp h
        generalize kind : initial.toNat / 32 = major at h₁
        split at h₁
        · obtain ⟨n, m₁, read, done⟩ := bind_ok.mp h₁
          obtain ⟨-, rfl⟩ := pure_ok.mp done
          obtain ⟨fit, begins⟩ := (head_ok (by decide)).mp ⟨initial, m, taken, kind, read⟩
          exact ⟨[.uint n], rfl, List.forall_mem_singleton.mpr fit, (encodeAll_singleton _).symm ▸ begins⟩
        · obtain ⟨n, m₁, read, h₂⟩ := bind_ok.mp h₁
          obtain ⟨value, m₂, cut, done⟩ := bind_ok.mp h₂
          obtain ⟨-, rfl⟩ := pure_ok.mp done
          obtain ⟨rfl, past, -⟩ := slice_ok.mp cut
          obtain ⟨fit, begins⟩ := (head_ok (by decide)).mp ⟨initial, m, taken, kind, read⟩
          refine ⟨[.bytes value], rfl, List.forall_mem_singleton.mpr fit, ?_⟩
          rw [encodeAll_singleton]
          exact Past.append_iff.mpr ⟨m₁, begins, past⟩
        · obtain ⟨n, m₁, read, h₂⟩ := bind_ok.mp h₁
          obtain ⟨value, m₂, cut, h₃⟩ := bind_ok.mp h₂
          obtain ⟨valid, rfl⟩ := require_ok.mp h₃
          obtain ⟨rfl, past, -⟩ := slice_ok.mp cut
          obtain ⟨fit, begins⟩ := (head_ok (by decide)).mp ⟨initial, m, taken, kind, read⟩
          refine ⟨[.text value], rfl, List.forall_mem_singleton.mpr ⟨valid, fit⟩, ?_⟩
          rw [encodeAll_singleton]
          exact Past.append_iff.mpr ⟨m₁, begins, past⟩
        · obtain ⟨n, m₁, read, rest⟩ := bind_ok.mp h₁
          obtain ⟨fit, begins⟩ := (head_ok (by decide)).mp ⟨initial, m, taken, kind, read⟩
          obtain ⟨tokens, elements, fits, past⟩ := (validateElements_ok ih n m₁ c' (begins.total ▸ small)).mp rest
          exact ⟨.array n :: tokens, elements, List.forall_mem_cons.mpr ⟨fit, fits⟩, Past.append_iff.mpr ⟨m₁, begins, past⟩⟩
        · obtain ⟨n, m₁, read, rest⟩ := bind_ok.mp h₁
          obtain ⟨fit, begins⟩ := (head_ok (by decide)).mp ⟨initial, m, taken, kind, read⟩
          obtain ⟨tokens, entries, fits, past⟩ := (validateEntries_ok ih n none m₁ c' (begins.total ▸ small)).mp rest
          exact ⟨.map n :: tokens, entries, List.forall_mem_cons.mpr ⟨fit, fits⟩, Past.append_iff.mpr ⟨m₁, begins, past⟩⟩
        · obtain ⟨which, rfl⟩ := require_ok.mp h₁
          have begins := take_ok.mp taken
          rcases which with no | yes
          · have byte : initial = 0xf4 := UInt8.toNat_inj.mp (show initial.toNat = 244 by omega)
            subst byte
            exact ⟨[.bool false], rfl, List.forall_mem_singleton.mpr trivial, (encodeAll_singleton _).symm ▸ begins⟩
          · have byte : initial = 0xf5 := UInt8.toNat_inj.mp (show initial.toNat = 245 by omega)
            subst byte
            exact ⟨[.bool true], rfl, List.forall_mem_singleton.mpr trivial, (encodeAll_singleton _).symm ▸ begins⟩
        · exact absurd h₁ reject_ok
      · rintro ⟨tokens, item, fits, past⟩
        cases tokens with
        | nil => cases item
        | cons t tokens =>
            rw [encodeAll_cons] at past
            obtain ⟨fit, others⟩ := List.forall_mem_cons.mp fits
            obtain ⟨m, begins, rest⟩ := Past.append_iff.mp past
            have small₁ := begins.total ▸ small
            cases t with
            | uint n =>
                cases item
                obtain rfl := Past.nil_iff.mp rest
                obtain ⟨initial, m', taken, kind, read⟩ := (head_ok (by decide)).mpr ⟨fit, begins⟩
                refine bind_ok.mpr ⟨initial, m', taken, ?_⟩
                simp only [kind]
                exact bind_ok.mpr ⟨n, _, read, rfl⟩
            | bytes value =>
                cases item
                obtain rfl := Past.nil_iff.mp rest
                obtain ⟨m₁, first, second⟩ := Past.append_iff.mp begins
                obtain ⟨initial, m', taken, kind, read⟩ := (head_ok (by decide)).mpr ⟨fit, first⟩
                refine bind_ok.mpr ⟨initial, m', taken, ?_⟩
                simp only [kind]
                refine bind_ok.mpr ⟨value.length, m₁, read, bind_ok.mpr ⟨value, _, slice_ok.mpr ⟨rfl, second, ?_⟩, rfl⟩⟩
                have := first.total
                have := second.total
                have := second.2
                omega
            | text value =>
                cases item
                obtain rfl := Past.nil_iff.mp rest
                obtain ⟨m₁, first, second⟩ := Past.append_iff.mp begins
                obtain ⟨initial, m', taken, kind, read⟩ := (head_ok (by decide)).mpr ⟨fit.2, first⟩
                refine bind_ok.mpr ⟨initial, m', taken, ?_⟩
                simp only [kind]
                refine bind_ok.mpr ⟨value.length, m₁, read, bind_ok.mpr ⟨value, _, slice_ok.mpr ⟨rfl, second, ?_⟩, ?_⟩⟩
                · have := first.total
                  have := second.total
                  have := second.2
                  omega
                · exact require_ok.mpr ⟨fit.1, rfl⟩
            | array n =>
                obtain ⟨initial, m', taken, kind, read⟩ := (head_ok (by decide)).mpr ⟨fit, begins⟩
                refine bind_ok.mpr ⟨initial, m', taken, ?_⟩
                simp only [kind]
                refine bind_ok.mpr ⟨n, m, read, ?_⟩
                exact (validateElements_ok ih n m c' small₁).mpr ⟨tokens, item, others, rest⟩
            | map n =>
                obtain ⟨initial, m', taken, kind, read⟩ := (head_ok (by decide)).mpr ⟨fit, begins⟩
                refine bind_ok.mpr ⟨initial, m', taken, ?_⟩
                simp only [kind]
                refine bind_ok.mpr ⟨n, m, read, ?_⟩
                exact (validateEntries_ok ih n none m c' small₁).mpr ⟨tokens, item, others, rest⟩
            | bool b =>
                cases item
                obtain rfl := Past.nil_iff.mp rest
                refine bind_ok.mpr ⟨if b then 0xf5 else 0xf4, _, take_ok.mpr begins, ?_⟩
                cases b with
                | false => rfl
                | true => rfl

/-- What `validate_deterministic_cbor` accepts is one item. -/
theorem validateDeterministicCbor_ok {bytes : Bytes} (small : bytes.length < 2 ^ 64) :
    validateDeterministicCbor bytes = .ok () ↔
      ∃ tokens, IsItem 64 tokens ∧ (∀ t ∈ tokens, t.Fits) ∧ bytes = encodeAll tokens := by
  have passes := fun c' => validateItem_ok 64 ⟨0, bytes⟩ c' (by simpa using small)
  unfold validateDeterministicCbor
  constructor
  · intro h
    split at h
    · rename_i cursor passed
      obtain ⟨tokens, item, fits, past⟩ := (passes cursor).mp passed
      split at h
      · rename_i whole
        have nothing : cursor.rest = [] := by
          have total : cursor.offset + cursor.rest.length = 0 + bytes.length := past.total
          exact List.length_eq_zero_iff.mp (by omega)
        have rest := past.1
        rw [nothing, List.append_nil] at rest
        exact ⟨tokens, item, fits, rest⟩
      · cases h
    · cases h
  · rintro ⟨tokens, item, fits, rfl⟩
    have passed := (passes ⟨(encodeAll tokens).length, []⟩).mpr ⟨tokens, item, fits, (List.append_nil _).symm, (Nat.zero_add _).symm⟩
    rw [passed]
    exact if_pos rfl

end

end AppPilotKit.Control
