import Mathlib

/-! # Shortening to fit

An answer is offered with as many items as asked for, then with one less each time, until
its size is within a limit. A second, larger limit ends the search: an offer beyond it is
refused.
-/

namespace Shortening

/-- The first count, from `count` down, whose size fits. -/
def shorten (size : Nat → Nat) (maximum applied : Nat) : Nat → Option Nat
  | 0 => if maximum < size 0 then none else if size 0 ≤ applied then some 0 else none
  | fewer + 1 =>
      if maximum < size (fewer + 1) then none
      else if size (fewer + 1) ≤ applied then some (fewer + 1)
      else shorten size maximum applied fewer

variable {size : Nat → Nat} {maximum applied first total : Nat}

/-- The search comes as far as `count`: what it offers before neither fits nor ends it. -/
def Reaches (size : Nat → Nat) (maximum applied first count : Nat) : Prop :=
  ∀ more, count < more → more ≤ first → applied < size more ∧ size more ≤ maximum

theorem Reaches.next {count : Nat} (reaches : Reaches size maximum applied first (count + 1))
    (here : applied < size (count + 1) ∧ size (count + 1) ≤ maximum) : Reaches size maximum applied first count := by
  intro more above below
  rcases Nat.lt_or_eq_of_le above with further | same
  · exact reaches more further below
  · rw [← same]
    exact here

theorem reaches_self (size : Nat → Nat) (maximum applied first : Nat) : Reaches size maximum applied first first := by
  intro more above below
  omega

/-- The count found is the largest within the limit, and all above it are within the maximum. -/
theorem shorten_some {count found : Nat} (le : count ≤ first) (reaches : Reaches size maximum applied first count)
    (finds : shorten size maximum applied count = some found) :
    found ≤ first ∧ Reaches size maximum applied first found ∧ size found ≤ applied ∧ size found ≤ maximum := by
  induction count with
  | zero =>
      rw [shorten] at finds
      split at finds
      · cases finds
      · split at finds
        · cases finds
          exact ⟨le, reaches, by assumption, by omega⟩
        · cases finds
  | succ fewer ih =>
      rw [shorten] at finds
      split at finds
      · cases finds
      · split at finds
        · cases finds
          exact ⟨le, reaches, by assumption, by omega⟩
        · exact ih (by omega) (reaches.next ⟨by omega, by omega⟩) finds

/-- An offer beyond the maximum, or none that fits. -/
def Refused (size : Nat → Nat) (maximum applied first : Nat) : Prop :=
  ∃ count, count ≤ first ∧ Reaches size maximum applied first count ∧
    (maximum < size count ∨ (count = 0 ∧ applied < size count))

theorem shorten_none {count : Nat} (le : count ≤ first) (reaches : Reaches size maximum applied first count)
    (finds : shorten size maximum applied count = none) : Refused size maximum applied first := by
  induction count with
  | zero =>
      rw [shorten] at finds
      split at finds
      · exact ⟨0, le, reaches, .inl (by assumption)⟩
      · split at finds
        · cases finds
        · exact ⟨0, le, reaches, .inr ⟨rfl, by omega⟩⟩
  | succ fewer ih =>
      rw [shorten] at finds
      split at finds
      · exact ⟨fewer + 1, le, reaches, .inl (by assumption)⟩
      · split at finds
        · cases finds
        · exact ih (by omega) (reaches.next ⟨by omega, by omega⟩) finds

theorem refused_iff (within : applied ≤ maximum) :
    shorten size maximum applied first = none ↔ Refused size maximum applied first := by
  constructor
  · exact shorten_none le_rfl (reaches_self size maximum applied first)
  · rintro ⟨count, le, reaches, ends⟩
    by_contra some
    obtain ⟨found, finds⟩ := Option.ne_none_iff_exists'.mp some
    obtain ⟨foundLe, foundReaches, fits, -⟩ := shorten_some le_rfl (reaches_self size maximum applied first) finds
    rcases Nat.lt_trichotomy found count with below | same | above
    · obtain ⟨beyond, small⟩ := foundReaches count below le
      omega
    · subst same
      omega
    · have := (reaches found above foundLe).1
      omega

/-- An offer whose size fits is found as soon as the search reaches it. -/
theorem found_of_fits (within : applied ≤ maximum) {count : Nat} (le : count ≤ first)
    (reaches : Reaches size maximum applied first count) (fits : size count ≤ applied) :
    shorten size maximum applied first = some count := by
  cases finds : shorten size maximum applied first with
  | none =>
      obtain ⟨other, otherLe, otherReaches, ends⟩ := (refused_iff within).mp finds
      rcases Nat.lt_trichotomy other count with below | same | above
      · have := (otherReaches count below le).1
        omega
      · subst same
        omega
      · have := (reaches other above otherLe).2
        have := (reaches other above otherLe).1
        omega
  | some found =>
      obtain ⟨foundLe, foundReaches, foundFits, -⟩ := shorten_some le_rfl (reaches_self size maximum applied first) finds
      rcases Nat.lt_trichotomy found count with below | same | above
      · have := (foundReaches count below le).1
        omega
      · rw [same]
      · have := (reaches found above foundLe).1
        omega

/-! ## Sizes that grow with the count

Below the whole of `total` items a larger offer is longer; the whole may be shorter, as
nothing has to say where to go on.
-/

/-- The first offer is within the maximum, and so is the second when the first was the whole. -/
def Admissible (size : Nat → Nat) (maximum applied first total : Nat) : Prop :=
  size first ≤ maximum ∧ (first = total → applied < size total → 1 < total → size (total - 1) ≤ maximum)

theorem reaches_of_admissible (growing : ∀ c d, c < d → d < total → size c < size d) (firstLe : first ≤ total)
    (admissible : Admissible size maximum applied first total) {count : Nat}
    (unfit : ∀ more, count < more → more ≤ first → applied < size more) :
    Reaches size maximum applied first count := by
  intro more above below
  refine ⟨unfit more above below, ?_⟩
  rcases Nat.lt_or_eq_of_le below with less | rfl
  · rcases Nat.lt_or_eq_of_le firstLe with short | whole
    · have := growing more first less short
      have := admissible.1
      omega
    · have second := admissible.2 whole (whole ▸ unfit first (by omega) le_rfl) (by omega)
      rcases Nat.lt_or_eq_of_le (show more ≤ total - 1 by omega) with lower | same
      · have := growing more (total - 1) lower (by omega)
        omega
      · rw [same]
        exact second
  · exact admissible.1

/-- When one item fits, the search finds a page with an item exactly if neither of the first two
    offers ends it. -/
theorem progress_iff (growing : ∀ c d, c < d → d < total → size c < size d) (firstLe : first ≤ total) (some : 1 ≤ first)
    (within : applied ≤ maximum) (fits : size 1 ≤ applied) :
    (∃ count, shorten size maximum applied first = .some count ∧ 1 ≤ count) ↔
      Admissible size maximum applied first total := by
  constructor
  · rintro ⟨count, finds, item⟩
    obtain ⟨le, reaches, found, small⟩ := shorten_some le_rfl (reaches_self size maximum applied first) finds
    constructor
    · rcases Nat.lt_or_eq_of_le le with less | rfl
      · exact (reaches first less le_rfl).2
      · exact small
    · intro whole unfit several
      rcases Nat.lt_trichotomy count (total - 1) with below | same | above
      · exact (reaches (total - 1) below (by omega)).2
      · rw [← same]
        exact small
      · have last : count = total := by omega
        rw [last] at found
        omega
  · intro admissible
    -- the largest offer that fits, from the one item up
    let good := fun count => 1 ≤ count ∧ size count ≤ applied
    have bound : ∃ count ≤ first, good count := ⟨1, some, le_rfl, fits⟩
    classical
    obtain ⟨largest, ⟨le, item, fit⟩, top⟩ : ∃ largest, (largest ≤ first ∧ good largest) ∧
        ∀ more, largest < more → more ≤ first → applied < size more := by
      refine ⟨Nat.findGreatest good first, ?_, ?_⟩
      · obtain ⟨count, le, holds⟩ := bound
        exact ⟨Nat.findGreatest_le first, Nat.findGreatest_spec le holds⟩
      · intro more above below
        by_contra fit
        have greatest := Nat.findGreatest_is_greatest above below
        exact greatest ⟨by omega, by omega⟩
    have reaches := reaches_of_admissible growing firstLe admissible top
    exact ⟨largest, found_of_fits within le reaches fit, item⟩

/-- When one item does not fit, the search refuses exactly if the whole does not fit either and
    it is ended at one of the first two offers, or by an empty one that does not fit. -/
theorem refused_iff_of_unfit (growing : ∀ c d, c < d → d < total → size c < size d) (firstLe : first ≤ total)
    (some : 1 ≤ first) (within : applied ≤ maximum) (unfit : applied < size 1) :
    shorten size maximum applied first = none ↔
      (first = total → applied < size total) ∧
        (Admissible size maximum applied first total → applied < size 0) := by
  have large : (first = total → applied < size total) → ∀ more, 1 ≤ more → more ≤ first → applied < size more := by
    intro wholeUnfit more item below
    rcases Nat.lt_or_eq_of_le (below.trans firstLe) with less | whole
    · rcases Nat.lt_or_eq_of_le item with further | same
      · have := growing 1 more further less
        omega
      · rw [← same]
        exact unfit
    · rw [whole]
      exact wholeUnfit (by omega)
  constructor
  · intro refuses
    have noFit : ∀ count ≤ first, Reaches size maximum applied first count → applied < size count := by
      intro count le reaches
      by_contra fit
      rw [found_of_fits within le reaches (by omega)] at refuses
      cases refuses
    have wholeUnfit : first = total → applied < size total := by
      intro whole
      rw [← whole]
      exact noFit first le_rfl (reaches_self _ _ _ _)
    refine ⟨wholeUnfit, fun admissible => noFit 0 (Nat.zero_le _) ?_⟩
    exact reaches_of_admissible growing firstLe admissible fun more above below => large wholeUnfit more above below
  · rintro ⟨wholeUnfit, empty⟩
    cases finds : shorten size maximum applied first with
    | none => rfl
    | some count =>
        obtain ⟨le, reaches, fit, small⟩ := shorten_some le_rfl (reaches_self size maximum applied first) finds
        rcases Nat.eq_zero_or_pos count with rfl | item
        · have admissible : Admissible size maximum applied first total :=
            ⟨(reaches first (by omega) le_rfl).2, fun whole _ several => (reaches (total - 1) (by omega) (by omega)).2⟩
          have := empty admissible
          omega
        · have := large wholeUnfit count item le
          omega

end Shortening
