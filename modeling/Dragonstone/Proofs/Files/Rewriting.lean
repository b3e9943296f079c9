/-
# Files rewritten in place

A path that can be read can be written, and writing replaces the bytes under one name, the one that
the path leads to.  Where paths lead depends on which names stand for files and which for folders,
and this stays as it was: after a file got new bytes, every path still leads to the same name or
fails for the same reason.  So reading gives the new bytes under paths to this file, and under all
other paths what it gave before.
-/

import Dragonstone.Files.Directory

namespace Dragonstone.Directory

/-- The name of what a path leads to, whatever stands there; none where it leads nowhere or to the
working directory itself. -/
def target? (d : Directory) (p : Path) : Option String :=
  match d.locate p with
  | .ok parts => if parts.isEmpty then none else some (key parts)
  | .error _ => none

theorem nodeAt?_eq_file_iff {d : Directory} {parts : List Text} {bytes : List UInt8} :
    d.nodeAt? parts = some (.file bytes) ↔
      parts.isEmpty = false ∧ d.get? (key parts) = some (.file bytes) := by
  unfold nodeAt?
  cases parts.isEmpty with
  | true => simp
  | false =>
      cases d.get? (key parts) with
      | some node => simp
      | none =>
          simp only [Bool.false_eq_true, if_false, true_and, reduceCtorEq, iff_false]
          split <;> simp

/-- A file that can be read stands under the name that its path leads to. -/
theorem read_eq_ok_iff {d : Directory} {p : Path} {bytes : List UInt8} :
    d.read p = .ok bytes ↔ ∃ name, d.target? p = some name ∧ d.get? name = some (.file bytes) := by
  unfold read target?
  cases d.locate p with
  | error e => simp [bind, Except.bind]
  | ok parts =>
      simp only [bind, Except.bind]
      constructor
      · intro h
        cases node : d.nodeAt? parts with
        | none => rw [node] at h; cases h
        | some node' =>
            cases node' with
            | folder => rw [node] at h; cases h
            | file found =>
                rw [node] at h
                cases h
                obtain ⟨nonempty, file⟩ := nodeAt?_eq_file_iff.mp node
                exact ⟨key parts, by simp [nonempty], file⟩
      · rintro ⟨name, target, file⟩
        split at target
        · cases target
        · next nonempty =>
          cases target
          rw [nodeAt?_eq_file_iff.mpr ⟨by simpa using nonempty, file⟩]
          rfl

/-- A file that can be read can be written. -/
theorem write_eq_ok {d : Directory} {p : Path} {name : String} {old : List UInt8}
    (target : d.target? p = some name) (file : d.get? name = some (.file old))
    (new : List UInt8) : d.write p new = .ok (d.put name (.file new)) := by
  unfold target? at target
  unfold write
  cases located : d.locate p with
  | error e => rw [located] at target; cases target
  | ok parts =>
      rw [located] at target
      simp only at target
      split at target
      · cases target
      · next nonempty =>
        cases target
        simp only [bind, Except.bind, nodeAt?_eq_file_iff.mpr ⟨by simpa using nonempty, file⟩]
        rfl

/-! ### Where paths lead after a file was rewritten -/

section Put

variable {d : Directory} {name : String} {old : List UInt8}

/-- New bytes in a file make no name come or go. -/
theorem keys_put_file (file : d.get? name = some (.file old)) (new : List UInt8) :
    (d.put name (.file new)).keys = d.keys := by
  apply KeyMap.keys_put_of_mem
  rw [KeyMap.mem_keys_iff, file]
  rfl

/-- What stands at a place is as it was, unless it is the file with the new bytes. -/
theorem nodeAt?_put_file (file : d.get? name = some (.file old)) (new : List UInt8)
    (parts : List Text) :
    nodeAt? (d.put name (.file new)) parts =
        (if parts.isEmpty = false ∧ key parts = name then some (.file new)
          else d.nodeAt? parts) ∧
      (parts.isEmpty = false ∧ key parts = name → d.nodeAt? parts = some (.file old)) := by
  constructor
  · unfold nodeAt?
    rw [KeyMap.get?_put, keys_put_file file]
    cases parts.isEmpty with
    | true => simp
    | false => by_cases here : key parts = name <;> simp [here]
  · rintro ⟨nonempty, rfl⟩
    exact nodeAt?_eq_file_iff.mpr ⟨nonempty, file⟩

theorem outside_put_file (file : d.get? name = some (.file old)) (new : List UInt8) (p : Path) :
    outside (d.put name (.file new)) p = d.outside p := by
  have known : (d.put name (.file new)).contains p.toString = d.contains p.toString := by
    rw [KeyMap.contains, KeyMap.contains, KeyMap.get?_put]
    split
    · next here => rw [here, file]; rfl
    · rfl
  rw [outside, known, outside]

theorem walk_put_file (file : d.get? name = some (.file old)) (new : List UInt8) (p : Path)
    (done rest : List Text) :
    walk (d.put name (.file new)) p done rest = d.walk p done rest := by
  induction rest generalizing done with
  | nil => rfl
  | cons part rest ih =>
      obtain ⟨there, before⟩ := nodeAt?_put_file file new done
      rw [walk, walk, there]
      by_cases here : done.isEmpty = false ∧ key done = name
      · rw [if_pos here, before here]
      · simp only [if_neg here, ih, outside_put_file file]

/-- Every path leads where it led. -/
theorem locate_put_file (file : d.get? name = some (.file old)) (new : List UInt8) (p : Path) :
    locate (d.put name (.file new)) p = d.locate p := by
  simp only [locate, walk_put_file file, outside_put_file file]

theorem target?_put_file (file : d.get? name = some (.file old)) (new : List UInt8) (p : Path) :
    target? (d.put name (.file new)) p = d.target? p := by
  rw [target?, locate_put_file file, target?]

/-- Reading under other paths gives what it gave before, also where it fails. -/
theorem read_put_file_of_ne (file : d.get? name = some (.file old)) (new : List UInt8) {p : Path}
    (other : d.target? p ≠ some name) : read (d.put name (.file new)) p = d.read p := by
  unfold target? at other
  unfold read
  rw [locate_put_file file]
  cases located : d.locate p with
  | error e => rfl
  | ok parts =>
      have elsewhere : ¬ (parts.isEmpty = false ∧ key parts = name) := by
        rintro ⟨nonempty, rfl⟩
        rw [located] at other
        simp [nonempty] at other
      simp only [bind, Except.bind, (nodeAt?_put_file file new parts).1, if_neg elsewhere]

end Put

end Dragonstone.Directory
