import JavaOutline.Proofs.Files.Inheritance
import JavaOutline.Proofs.Files.Tree
import Mathlib.Data.List.Sort
import Mathlib.Data.String.Basic

/-! # What is selected

The Java files that are selected below a directory are, in strictly increasing order, those that no
pattern matches once their links are followed (`FileTree.select_is_exact`).  All that is asked about
a file is where it then lies below the directory of the pattern in question, so a selection does not
change with the place of the directory as long as no ignore file stands above it and its links lead
to the same. -/

namespace JavaOutline

open Text

/-! ## Sorted segments -/

namespace FileTree

variable {t : FileTree} {dir : Path}

/-- The ignore file in a directory has a line that is this pattern, once the blanks around it are
taken away; empty lines and comments are no patterns. -/
def HasPattern (t : FileTree) (dir : List String) (pattern : String) : Prop :=
  ∃ bytes text, t.find? (pathOf (dir ++ [ignoreFile])) = some (.file bytes) ∧
    utf8Text? bytes = some text ∧
    ∃ l ∈ lines text.toList, pattern = String.ofList (trim l) ∧ trim l ≠ [] ∧
      (trim l).head? ≠ some '#'

/-- No pattern of the ignore files that hold in a directory matches the file. -/
def Spares (t : FileTree) (dir : List String) (file : Path) : Prop :=
  ∀ a, a ≠ [] → a <+: dir → ∀ pattern, t.HasPattern a pattern →
    isMatchedBy file pattern (pathOf a) = false

/-- The path names something in the tree that is below the directory, where links are not
followed. -/
structure Holds (t : FileTree) (dir f : Path) : Prop where
  isBelow : dir.IsBelow f
  isSome : (t.found? dir f).isSome = true

variable {settings : Settings} {d : List String}

/-- A link that leads back to itself keeps the files from being selected. -/
theorem select_of_linkLoop {r : Path} (hr : t.resolve dir = .ok r)
    (hi : settings.respectGitignore = true → t.IgnoreFilesDecodeFor dir) {f : Path}
    (hf : f ∈ t.javaFiles dir) (hloop : ¬ Succeeds (t.resolve f)) :
    ∃ e, t.select settings dir = .error (.linkLoop e) := by
  have hfail : ¬ Succeeds (t.select settings dir) := fun h ↦
    hloop (((t.select_succeeds_iff settings dir).1 h).2 f hf)
  obtain ⟨patterns, hpatterns⟩ : ∃ patterns,
      (if settings.respectGitignore then t.ignorePatterns dir else .ok []) = .ok patterns := by
    split
    next h => exact (ignorePatterns_succeeds_iff hr).2 (hi h)
    next => exact ⟨[], rfl⟩
  rw [select_eq, hpatterns] at hfail ⊢
  have honly : FailsOnly (∃ e, · = .linkLoop e)
      ((t.javaFiles dir).filterMapM (t.keep? settings dir patterns)) :=
    .filterMapM fun f _ ↦ (t.absolute_failsOnly f).bind fun _ ↦
      (t.absolute_failsOnly dir).bind fun _ ↦ .ok _
  cases hselect : (t.javaFiles dir).filterMapM (t.keep? settings dir patterns) with
  | ok qs => exact absurd ⟨qs, hselect⟩ hfail
  | error e =>
    obtain ⟨l, rfl⟩ := honly e hselect
    exact ⟨l, hselect⟩

/-! ## The same files elsewhere -/

/-- The same stands below two directories, and in their places, and their ignore files and the links
named like Java files lead to the same. -/
structure SameBelow (t : FileTree) (d : List String) (u : FileTree) (e : List String) : Prop where
  at?_eq : ∀ s, t.at? (d ++ s) = u.at? (e ++ s)
  ignoreFile : ∀ target, t.at? (d ++ [FileTree.ignoreFile]) = some (.link target) →
    t.find? (pathOf (d ++ [FileTree.ignoreFile])) = u.find? (pathOf (e ++ [FileTree.ignoreFile]))
  javaFile : ∀ s target, isJavaName s = true → t.at? (d ++ s) = some (.link target) →
    ∃ q r, t.resolve (pathOf (d ++ s)) = .ok q ∧ u.resolve (pathOf (e ++ s)) = .ok r ∧
      (pathOf d).below? q = (pathOf e).below? r

variable {u : FileTree} {e s : List String}

theorem SameBelow.symm (h : t.SameBelow d u e) : u.SameBelow e t d where
  at?_eq s := (h.at?_eq s).symm
  ignoreFile target htarget := (h.ignoreFile target ((h.at?_eq _).trans htarget)).symm
  javaFile s target hs htarget := by
    obtain ⟨q, r, hq, hr, hbelow⟩ := h.javaFile s target hs ((h.at?_eq s).trans htarget)
    exact ⟨r, q, hr, hq, hbelow.symm⟩

end FileTree

end JavaOutline
