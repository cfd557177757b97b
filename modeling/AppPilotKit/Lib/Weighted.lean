import Mathlib

/-! # Weights of an association list

The total weight of the values of a finite map, and how insertion, removal and
filtering change it.
-/

namespace Weighted

variable {α β : Type}

abbrev Dict (α β : Type) := AList fun _ : α => β

/-- The sum of the weights of all values. -/
def total (weight : β → Int) (d : Dict α β) : Int := (d.entries.map fun entry => weight entry.2).sum

/-- Keep the entries whose value satisfies `p`. -/
def retain (p : β → Bool) (d : Dict α β) : Dict α β :=
  ⟨d.entries.filter fun entry => p entry.2, d.nodupKeys.sublist List.filter_sublist⟩

variable {weight : β → Int} {d : Dict α β}

section
variable [DecidableEq α]

theorem total_insert {key : α} (value : β) (fresh : d.lookup key = none) :
    total weight (d.insert key value) = total weight d + weight value := by
  have absent : key ∉ d := AList.lookup_eq_none.mp fresh
  unfold total
  rw [AList.entries_insert_of_notMem absent, List.map_cons, List.sum_cons, Int.add_comm]

theorem total_erase {key : α} {value : β} (found : d.lookup key = some value) :
    total weight (d.erase key) = total weight d - weight value := by
  have member : ⟨key, value⟩ ∈ d.entries := AList.mem_lookup_iff.mp found
  obtain ⟨front, back, split, -, erased⟩ : ∃ front back, d.entries = front ++ ⟨key, value⟩ :: back ∧
      key ∉ List.keys front ∧ (d.erase key).entries = front ++ back := by
    obtain ⟨other, front, back, clear, split, erased⟩ :=
      List.exists_of_kerase (List.mem_keys_of_mem member)
    have same : other = value := by
      have there : (⟨key, other⟩ : Sigma fun _ : α => β) ∈ d.entries := by
        rw [split]
        simp
      have lookups := AList.mem_lookup_iff.mpr there
      rw [found] at lookups
      exact (Option.some.inj lookups).symm
    subst same
    exact ⟨front, back, split, clear, erased⟩
  unfold total
  rw [erased, split]
  simp only [List.map_append, List.sum_append, List.map_cons, List.sum_cons]
  omega

end

theorem total_retain (p : β → Bool) :
    total weight (retain p d) =
      total weight d - ((d.entries.filter fun entry => !p entry.2).map fun entry => weight entry.2).sum := by
  show ((d.entries.filter fun entry => p entry.2).map fun entry => weight entry.2).sum =
    (d.entries.map fun entry => weight entry.2).sum - _
  induction d.entries with
  | nil => rfl
  | cons entry rest ih =>
      by_cases holds : p entry.2 = true
      · simp only [List.filter_cons, holds, if_true, Bool.not_true, Bool.false_eq_true, if_false, List.map_cons,
          List.sum_cons, ih]
        omega
      · simp only [List.filter_cons, holds, Bool.false_eq_true, if_false, Bool.not_false, if_true, List.map_cons,
          List.sum_cons, ih]
        omega

variable [DecidableEq α]

theorem lookup_retain {p : β → Bool} {key : α} {value : β} :
    (retain p d).lookup key = some value ↔ d.lookup key = some value ∧ p value = true := by
  have inside := AList.mem_lookup_iff (s := retain p d) (a := key) (b := value)
  have outside := AList.mem_lookup_iff (s := d) (a := key) (b := value)
  rw [← Option.mem_def, ← Option.mem_def, inside, outside]
  simp [retain]

end Weighted
