import EfiLoader.Bytes

/-!
Files by path. Main statement: after `put`, the path has the new contents and every other path what
it had.
-/

namespace EfiLoader.Testbed

abbrev Volume := List (String × Bytes)

namespace Volume

def contents? (volume : Volume) (path : String) : Option Bytes := volume.lookup path

def remove (volume : Volume) (path : String) : Volume :=
  volume.filter fun entry => entry.1 ≠ path

def put (volume : Volume) (path : String) (contents : Bytes) : Volume :=
  (path, contents) :: volume.remove path

/-- Dropping a path leaves what others have. -/
theorem contents?_remove_of_ne (volume : Volume) {path other : String} (h : other ≠ path) :
    (volume.remove path).contents? other = volume.contents? other := by
  have differ : (other == path) = false := by simp [h]
  unfold remove contents?
  induction volume with
  | nil => rfl
  | cons entry rest ih =>
    obtain ⟨name, kept⟩ := entry
    by_cases same : name = path
    · subst same
      simpa [List.lookup_cons, differ] using ih
    · simp only [List.filter_cons, ne_eq, same, not_false_eq_true, decide_true, if_true,
        List.lookup_cons, ih]

theorem contents?_put (volume : Volume) (path other : String) (contents : Bytes) :
    (volume.put path contents).contents? other =
      if other = path then some contents else volume.contents? other := by
  by_cases h : other = path
  · simp [put, contents?, h]
  · have differ : (other == path) = false := by simp [h]
    rw [if_neg h, ← contents?_remove_of_ne volume h]
    simp [put, remove, contents?, List.lookup_cons, differ]

end Volume

end EfiLoader.Testbed
