import Mathlib
import CodeReference.CommandLine.Surroundings
import CodeReference.Proofs.Lists

/-!
What writing a file changes in a directory: the contents of the file, and nothing else.
-/
namespace CodeReference.CommandLine.Directory

variable {d : Directory} {path : Text} {place : Place} {bytes old : List UInt8} {l : Location}

theorem item?_of_find? (h : d.find? path = some place) :
    d.item? place.location = some place.item := by
  unfold find? at h
  split at h
  · cases h
  · simp only [bind, Option.bind_eq_some_iff, pure, Option.some.injEq] at h
    obtain ⟨l, -, item, hitem, rfl⟩ := h
    exact hitem

theorem lookup_of_item? (h : d.item? l = some (.file bytes)) : d.files.lookup l = some bytes := by
  unfold item? at h
  split at h
  · rename_i found hfound
    cases h
    exact hfound
  · split at h
    · cases h
    · cases h

theorem write_eq (h : d.find? path = some place) : d.write path bytes =
    { d with
      files := d.files.map fun f => (f.1, if f.1 = place.location then bytes else f.2) } := by
  rw [write, h]
  dsimp only
  congr 1
  refine List.map_congr_left fun f _ => ?_
  by_cases hf : f.1 = place.location
  · simp [hf]
  · simp [hf]

/-- Written bytes are found where the path leads, and everything else is found as it was. -/
theorem item?_write (h : d.find? path = some place) (hold : place.item = .file old) (l : Location) :
    (d.write path bytes).item? l = if l = place.location then some (.file bytes) else d.item? l := by
  have hlookup : d.files.lookup place.location = some old :=
    lookup_of_item? (hold ▸ item?_of_find? h)
  have hdirectory : (d.write path bytes).isDirectory l = d.isDirectory l := by
    simp only [write_eq h, isDirectory, List.any_map, Function.comp_def]
  rw [item?, hdirectory, write_eq h]
  dsimp only
  rw [lookup_map_snd fun k b => if k = place.location then bytes else b]
  by_cases hl : l = place.location
  · rw [if_pos hl, hl, hlookup]
    simp
  · simp only [if_neg hl, Option.map_id']
    rfl

end CodeReference.CommandLine.Directory
