import AppPilotKit.Lib.Keyed

/-! # Sorting by two keys

When sorting by one key and by another give the same list.
-/

namespace Sorting

variable {α κ : Type} [LinearOrder κ] {f g : α → κ} {l : List α}

end Sorting
