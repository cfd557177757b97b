import Mathlib

/-! # Members looked up by a key of their name

A JSON object in memory finds a member by its name. Which names are the same is up to
the platform: two names are, when they have the same key.
-/

namespace Keyed

section
variable {α κ β γ : Type} [DecidableEq κ] (key : α → κ)

/-- The value of the first member whose name has the key of `name`. -/
def get (members : List (α × β)) (name : α) : Option β :=
  (members.find? fun entry => key entry.1 = key name).map Prod.snd

def has (members : List (α × β)) (name : α) : Bool := members.any fun entry => key entry.1 = key name

/-- No two names have the same key. -/
def Unambiguous (members : List (α × β)) : Prop := members.Pairwise fun a b => key a.1 ≠ key b.1

/-- The first member of each key. -/
def first : List (α × β) → List (α × β)
  | [] => []
  | entry :: rest => entry :: (first rest).filter fun other => key other.1 ≠ key entry.1

variable {key} {members : List (α × β)} {name : α} {value : β}

theorem mem_of_get (found : get key members name = some value) :
    ∃ other, key other = key name ∧ (other, value) ∈ members := by
  unfold get at found
  rw [Option.map_eq_some_iff] at found
  obtain ⟨⟨other, v⟩, there, rfl⟩ := found
  exact ⟨other, by simpa using List.find?_some there, List.mem_of_find?_eq_some there⟩

theorem has_iff : has key members name = true ↔ ∃ entry ∈ members, key entry.1 = key name := by
  simp [has]

theorem get_isSome : (get key members name).isSome = has key members name := by
  unfold get has
  rw [Option.isSome_map, List.isSome_find?]

theorem get_map (f : β → γ) :
    get key (members.map fun entry => (entry.1, f entry.2)) name = (get key members name).map f := by
  unfold get
  rw [List.find?_map]
  cases h : members.find? fun entry => key entry.1 = key name with
  | none =>
      rw [show (members.find? ((fun entry : α × γ => decide (key entry.1 = key name)) ∘ fun entry => (entry.1, f entry.2))) =
        none from h]
      rfl
  | some entry =>
      rw [show (members.find? ((fun entry : α × γ => decide (key entry.1 = key name)) ∘ fun entry => (entry.1, f entry.2))) =
        some entry from h]
      rfl

/-- A name whose key no other name has is looked up as it is spelled. -/
theorem get_spelled [DecidableEq α] (spelled : ∀ other, key other = key name ↔ other = name) :
    get key members name = get id members name := by
  unfold get
  congr 2
  funext entry
  simp [spelled entry.1]

theorem has_of_spelled [DecidableEq α] (spelled : has id members name = true) : has key members name = true := by
  obtain ⟨entry, member, same⟩ := has_iff.mp spelled
  exact has_iff.mpr ⟨entry, member, congrArg key same⟩

/-- Two members of the same key are one. -/
theorem name_eq_of_key [DecidableEq α] (unambiguous : Unambiguous key members) {a b : α} (hasA : has id members a = true)
    (hasB : has id members b = true) (same : key a = key b) : a = b := by
  obtain ⟨entryA, memberA, rfl⟩ := has_iff.mp hasA
  obtain ⟨entryB, memberB, rfl⟩ := has_iff.mp hasB
  have symmetric : Std.Symm fun a b : α × β => key a.1 ≠ key b.1 := ⟨fun _ _ apart => apart.symm⟩
  by_contra other
  exact unambiguous.forall memberA memberB (fun equal => other (congrArg Prod.fst equal)) same

theorem first_of_unambiguous (unambiguous : Unambiguous key members) : first key members = members := by
  induction members with
  | nil => rfl
  | cons entry rest ih =>
      obtain ⟨others, unambiguous⟩ := List.pairwise_cons.mp unambiguous
      unfold first
      rw [ih unambiguous, List.filter_eq_self.mpr]
      intro other member
      simpa using (others other member).symm

theorem unambiguous_map {f : β → γ} :
    Unambiguous key (members.map fun entry => (entry.1, f entry.2)) ↔ Unambiguous key members :=
  List.pairwise_map

theorem Unambiguous.perm {others : List (α × β)} (unambiguous : Unambiguous key members) (perm : List.Perm members others) :
    Unambiguous key others :=
  (perm.pairwise_iff fun apart => apart.symm).mp unambiguous

end

end Keyed
