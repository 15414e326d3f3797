import TexProse.File.Document
import TexProse.Proofs.File.Path

/-!
# What a name finds

A name finds the file that it leads to, and else the file at the path with the extension `tex`. Main
statement: `findFile_retitled`. For a name without extension that path is the name with the extension behind
it; in any other it is not, so that a name may find the file of another document.
-/

namespace TexProse

def Entry.IsFile (entry : Entry) : Prop := ∃ contents, entry = .file contents

/-- The extension of a document. -/
abbrev tex : List Char := ['t', 'e', 'x']

variable {files : FileView} {name : String}

theorem findFile_of_directory (h : files name = .directory) :
    findFile files name = .error (.isDirectory name) := by
  simp only [findFile, h]

theorem findFile_of_isFile (h : (files name).IsFile) : findFile files name = .ok name := by
  obtain ⟨contents, hcontents⟩ := h
  simp only [findFile, hcontents]

/-- The path that is looked at where a name leads to nothing. -/
def candidate (name : String) : String := String.ofList (Path.withExtension name.toList tex)

theorem candidate_of_retitled {other : String} (h : Path.Retitled tex name.toList other.toList) :
    Path.extension? name.toList ≠ some tex ∧ candidate name = other := by
  obtain ⟨hnew, hpath⟩ := h.withExtension_eq (by decide)
  exact ⟨hnew, by rw [candidate, hpath, String.ofList_toList]⟩

/-- A path without a name gets no extension. -/
theorem retitled_candidate (hnew : Path.extension? name.toList ≠ some tex) :
    Path.Retitled tex name.toList (candidate name).toList ∨ candidate name = name := by
  cases hname : Path.name? name.toList with
  | none =>
      right
      simp [candidate, Path.withExtension, Path.extension?, Path.putExtension, hname]
  | some file =>
      left
      obtain ⟨other, hother⟩ := Path.exists_retitled hname hnew
      rwa [candidate, String.toList_ofList, (hother.withExtension_eq (by decide)).2]

theorem findFile_of_retitled {other : String} (h : files name = .absent)
    (hother : Path.Retitled tex name.toList other.toList) (hfile : (files other).IsFile) :
    findFile files name = .ok other := by
  obtain ⟨hnew, rfl⟩ := candidate_of_retitled hother
  obtain ⟨contents, hcontents⟩ := hfile
  simp only [candidate] at hcontents
  simp only [findFile, h, if_neg hnew, hcontents, candidate]

theorem findFile_of_forall_not (h : files name = .absent)
    (hnone : ∀ other : String, Path.Retitled tex name.toList other.toList → ¬ (files other).IsFile) :
    findFile files name = .error (.noFile name) := by
  simp only [findFile, h]
  split
  · rfl
  next hnew =>
    split
    next contents hcontents =>
      rcases retitled_candidate hnew with hother | hsame
      · exact absurd ⟨contents, hcontents⟩ (hnone _ hother)
      · rw [← candidate, hsame, h] at hcontents
        cases hcontents
    · rfl

theorem findFile_cases (files : FileView) (name : String) :
    (files name = .directory ∧ findFile files name = .error (.isDirectory name)) ∨
    (∃ path, ((files path).IsFile ∧
      (path = name ∨ files name = .absent ∧ Path.Retitled tex name.toList path.toList)) ∧
      findFile files name = .ok path) ∨
    (files name = .absent ∧
      ∀ other : String, Path.Retitled tex name.toList other.toList → ¬ (files other).IsFile) ∧
      findFile files name = .error (.noFile name) := by
  cases hname : files name with
  | directory => exact .inl ⟨rfl, findFile_of_directory hname⟩
  | file contents =>
      have hfile : (files name).IsFile := ⟨contents, hname⟩
      exact .inr (.inl ⟨name, ⟨hfile, .inl rfl⟩, findFile_of_isFile hfile⟩)
  | absent =>
      right
      by_cases hsome : ∃ other : String, Path.Retitled tex name.toList other.toList ∧ (files other).IsFile
      · obtain ⟨other, hother, hfile⟩ := hsome
        exact .inl ⟨other, ⟨hfile, .inr ⟨rfl, hother⟩⟩, findFile_of_retitled hname hother hfile⟩
      · have hnone := fun other hother hfile => hsome ⟨other, hother, hfile⟩
        exact .inr ⟨⟨rfl, hnone⟩, findFile_of_forall_not hname hnone⟩

/-- Nothing but the name with the extension behind it is looked at exactly if the name ends in the name of a
file that has no extension. -/
theorem forall_retitled_iff (name : String) :
    (∀ other : String, Path.Retitled tex name.toList other.toList ↔ other = name ++ ".tex") ↔
      ∃ directories file, Path.Reads name.toList directories file [] ∧ '.' ∉ file.tail := by
  have happend : (name ++ ".tex").toList = name.toList ++ '.' :: tex := String.toList_append
  rw [← Path.retitled_append_iff, ← happend]
  constructor
  · intro h
    exact (h _).mpr rfl
  · intro h other
    constructor
    · intro hother
      exact (candidate_of_retitled hother).2.symm.trans (candidate_of_retitled h).2
    · rintro rfl
      exact h

/-- A name finds itself if it leads to a file. If it leads to nothing it finds the path with the extension,
if that leads to a file. There are no other finds; a directory is refused, and so is what leads to nothing.
The path with the extension is the name with the extension behind it exactly if the name ends in the name of
a file that has no extension. -/
theorem findFile_retitled (files : FileView) (name : String) :
    (∀ path, findFile files name = .ok path ↔ (files path).IsFile ∧
      (path = name ∨ files name = .absent ∧ Path.Retitled tex name.toList path.toList)) ∧
    (∀ failure, findFile files name = .error failure ↔
      failure = .isDirectory name ∧ files name = .directory ∨
      failure = .noFile name ∧ files name = .absent ∧
        ∀ other : String, Path.Retitled tex name.toList other.toList → ¬ (files other).IsFile) ∧
    ((∀ other : String, Path.Retitled tex name.toList other.toList ↔ other = name ++ ".tex") ↔
      ∃ directories file, Path.Reads name.toList directories file [] ∧ '.' ∉ file.tail) := by
  refine ⟨fun path => ⟨fun h => ?_, ?_⟩, fun failure => ⟨fun h => ?_, ?_⟩, forall_retitled_iff name⟩
  · rcases findFile_cases files name with ⟨-, hfind⟩ | ⟨found, hfound, hfind⟩ | ⟨-, hfind⟩
    · cases hfind.symm.trans h
    · obtain rfl := Except.ok.inj (hfind.symm.trans h)
      exact hfound
    · cases hfind.symm.trans h
  · rintro ⟨hfile, rfl | ⟨habsent, hother⟩⟩
    · exact findFile_of_isFile hfile
    · exact findFile_of_retitled habsent hother hfile
  · rcases findFile_cases files name with ⟨hdirectory, hfind⟩ | ⟨found, -, hfind⟩ | ⟨hnone, hfind⟩
    · exact .inl ⟨Except.error.inj (h.symm.trans hfind), hdirectory⟩
    · cases hfind.symm.trans h
    · exact .inr ⟨Except.error.inj (h.symm.trans hfind), hnone⟩
  · rintro (⟨rfl, hdirectory⟩ | ⟨rfl, habsent, hnone⟩)
    · exact findFile_of_directory hdirectory
    · exact findFile_of_forall_not habsent hnone

/-- A name with a dot finds the file of another document, though its own is there. -/
theorem findFile_replaced :
    findFile (FileTree.ofPaths [] [("thesis.tex", .empty), ("thesis.v2.tex", .empty)]).view "thesis.v2" =
        .ok "thesis.tex" ∧
      "thesis.tex" ≠ "thesis.v2" ∧ "thesis.tex" ≠ "thesis.v2" ++ ".tex" := by
  decide +kernel

end TexProse
