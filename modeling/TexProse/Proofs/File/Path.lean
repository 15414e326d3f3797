import Mathlib.Data.List.DropRight
import TexProse.File.Path

/-!
# Paths with another extension

A path that leads to something reads as the directories above it, the name of what it leads to, and slashes
and dots that lead no further. `Retitled` says by this reading what another extension makes of a path. Main
statements: `Retitled.withExtension_eq` and `exists_retitled`, by which no other path is made and one is made
wherever there is a name, and `retitled_append_iff`, by which only a name without extension has the new one
behind all that it was.
-/

namespace TexProse.Path
variable {path directories part name stem old trail extension other : List Char}

section Parts

theorem split_eq_splitOn (path : List Char) : split path = path.splitOn '/' := by
  induction path with
  | nil => rfl
  | cons c rest ih =>
      rw [split, List.splitOn_cons_eq_if_modifyHead, ih]
      by_cases hc : c = '/'
      · simp [hc]
      · obtain ⟨first, others, hsplit⟩ := List.exists_cons_of_ne_nil (List.splitOn_ne_nil '/' rest)
        simp [hc, hsplit]

@[simp] theorem join_split (path : List Char) : join (split path) = path := by
  rw [join, split_eq_splitOn, List.intercalate_splitOn]

theorem split_append_slash (above rest : List Char) :
    split (above ++ '/' :: rest) = split above ++ split rest := by
  simp only [split_eq_splitOn, List.splitOn_append_cons_self]

theorem split_of_notMem (h : '/' ∉ part) : split part = [part] := by
  rw [split_eq_splitOn, List.splitOn_eq_singleton h]

theorem notMem_of_mem_split (h : part ∈ split path) : '/' ∉ part := by
  induction path generalizing part with
  | nil =>
      rw [List.mem_singleton.mp h]
      exact List.not_mem_nil
  | cons c rest ih =>
      rw [split] at h
      split at h
      · rcases List.mem_cons.mp h with rfl | h
        · exact List.not_mem_nil
        · exact ih h
      next hc =>
        split at h
        next first others hsplit =>
          rcases List.mem_cons.mp h with rfl | h
          · have hfirst := ih (hsplit ▸ List.mem_cons_self)
            simp [Ne.symm hc, hfirst]
          · exact ih (hsplit ▸ List.mem_cons_of_mem first h)
        next hsplit =>
          rw [List.mem_singleton.mp h]
          simp [Ne.symm hc]

end Parts

/-- The directories above a name, with the slash before it. -/
def IsAbove (directories : List Char) : Prop := directories = [] ∨ ∃ above, directories = above ++ ['/']

/-- Slashes, and single dots behind slashes. -/
inductive IsTrail : List Char → Prop
  | nil : IsTrail []
  | slash {rest : List Char} (h : IsTrail rest) : IsTrail ('/' :: rest)
  | dot {rest : List Char} (h : IsTrail rest) : IsTrail ('/' :: '.' :: rest)

theorem IsTrail.take (h : IsTrail trail) (count : Nat) : IsTrail (trail.take count) := by
  induction h generalizing count with
  | nil => simpa using IsTrail.nil
  | slash h ih =>
      cases count with
      | zero => exact .nil
      | succ count => exact .slash (ih count)
  | dot h ih =>
      match count with
      | 0 => exact .nil
      | 1 => exact .slash .nil
      | count + 2 => exact .dot (ih count)

/-- How a path reads that leads to something, be it a way up. -/
structure Reads (path directories name trail : List Char) : Prop where
  path_eq : path = directories ++ name ++ trail
  above : IsAbove directories
  slash : '/' ∉ name
  idle : isIdle name = false
  trail : IsTrail trail

theorem exists_split_above (h : IsAbove directories) :
    ∃ parts, ∀ rest, split (directories ++ rest) = parts ++ split rest := by
  rcases h with rfl | ⟨above, rfl⟩
  · exact ⟨[], fun rest => rfl⟩
  · refine ⟨split above, fun rest => ?_⟩
    rw [List.append_assoc, List.singleton_append, split_append_slash]

theorem exists_split_trail (hpart : '/' ∉ part) (h : IsTrail trail) :
    ∃ idle, split (part ++ trail) = part :: idle ∧ ∀ p ∈ idle, isIdle p = true := by
  induction h generalizing part with
  | nil => exact ⟨[], by rw [List.append_nil, split_of_notMem hpart], by simp⟩
  | slash h ih =>
      obtain ⟨idle, hsplit, hidle⟩ := ih (show '/' ∉ [] from List.not_mem_nil)
      rw [List.nil_append] at hsplit
      refine ⟨[] :: idle, ?_, List.forall_mem_cons.mpr ⟨rfl, hidle⟩⟩
      rw [split_append_slash, split_of_notMem hpart, hsplit, List.singleton_append]
  | dot h ih =>
      obtain ⟨idle, hsplit, hidle⟩ := ih (show '/' ∉ ['.'] by decide)
      rw [List.singleton_append] at hsplit
      refine ⟨['.'] :: idle, ?_, List.forall_mem_cons.mpr ⟨rfl, hidle⟩⟩
      rw [split_append_slash, split_of_notMem hpart, hsplit, List.singleton_append]

theorem trunk_eq_rdropWhile (path : List Char) : trunk path = (split path).rdropWhile isIdle := rfl

/-- The trunk of a path ends with the name, and another name may take its place. -/
theorem Reads.exists_trunk (h : Reads path directories name trail) :
    ∃ parts, trunk path = parts ++ [name] ∧
      ∀ file, '/' ∉ file → join (parts ++ [file]) = directories ++ file := by
  obtain ⟨parts, hparts⟩ := exists_split_above h.above
  obtain ⟨idle, hsplit, hidle⟩ := exists_split_trail h.slash h.trail
  refine ⟨parts, ?_, ?_⟩
  · rw [trunk, h.path_eq, List.append_assoc, hparts, hsplit, List.reverse_append, List.reverse_cons,
      List.append_assoc, List.dropWhile_append_of_pos (by simpa using hidle), List.singleton_append,
      List.dropWhile_cons_of_neg (by simp [h.idle])]
    simp
  · intro file hfile
    rw [← split_of_notMem hfile, ← hparts, join_split]

theorem exists_join_above (parts : List (List Char)) (part : List Char) (rest : List (List Char)) :
    ∃ directories, IsAbove directories ∧ join (parts ++ part :: rest) = directories ++ join (part :: rest) := by
  induction parts with
  | nil => exact ⟨[], .inl rfl, rfl⟩
  | cons first parts ih =>
      obtain ⟨directories, habove, hjoin⟩ := ih
      refine ⟨first ++ '/' :: directories, .inr ?_, ?_⟩
      · rcases habove with rfl | ⟨above, rfl⟩
        · exact ⟨first, rfl⟩
        · exact ⟨first ++ '/' :: above, by simp⟩
      · rw [join, List.cons_append, List.intercalate_cons_of_ne_nil (by simp), ← join, hjoin]
        simp

theorem exists_join_trail {idle : List (List Char)} (h : ∀ p ∈ idle, isIdle p = true) (part : List Char) :
    ∃ trail, IsTrail trail ∧ join (part :: idle) = part ++ trail := by
  induction idle generalizing part with
  | nil => exact ⟨[], .nil, by simp [join]⟩
  | cons next idle ih =>
      obtain ⟨hnext, hidle⟩ := List.forall_mem_cons.mp h
      obtain ⟨trail, htrail, hjoin⟩ := ih hidle next
      refine ⟨'/' :: (next ++ trail), ?_, ?_⟩
      · rcases (by simpa [isIdle] using hnext : next = [] ∨ next = ['.']) with rfl | rfl
        · exact .slash htrail
        · exact .dot htrail
      · rw [join, List.intercalate_cons_of_ne_nil (by simp), ← join, hjoin]
        simp

/-- A path leads to something, or all its parts are idle. -/
theorem exists_reads (h : trunk path ≠ []) : ∃ directories name trail, Reads path directories name trail := by
  obtain ⟨parts, name, htrunk⟩ := (List.eq_nil_or_concat' (trunk path)).resolve_left h
  have hsplit : split path = parts ++ name :: (split path).rtakeWhile isIdle := by
    rw [List.append_cons, ← htrunk]
    exact List.rdropWhile_append_rtakeWhile.symm
  have hname : name ∈ split path := by
    rw [hsplit]
    simp
  obtain ⟨directories, habove, hjoin⟩ := exists_join_above parts name ((split path).rtakeWhile isIdle)
  obtain ⟨trail, htrail, hjoin'⟩ :=
    exists_join_trail (fun p hp => List.mem_rtakeWhile_imp hp) name
  refine ⟨directories, name, trail, ?_, habove, notMem_of_mem_split hname, ?_, htrail⟩
  · rw [← join_split path, hsplit, hjoin, hjoin', List.append_assoc]
  · have hlast := List.rdropWhile_last_not isIdle (split path) h
    simpa [← trunk_eq_rdropWhile, htrunk] using hlast

theorem Reads.name?_eq (h : Reads path directories name trail) :
    name? path = if name = ['.', '.'] then none else some name := by
  obtain ⟨parts, htrunk, -⟩ := h.exists_trunk
  rw [name?, htrunk, List.getLast?_concat, Option.filter]
  split <;> simp_all

theorem exists_reads_of_name? (h : name? path = some name) :
    name ≠ ['.', '.'] ∧ ∃ directories trail, Reads path directories name trail := by
  have hsome : trunk path ≠ [] := by
    intro hnil
    simp [name?, hnil] at h
  obtain ⟨directories, found, trail, hreads⟩ := exists_reads hsome
  rw [hreads.name?_eq] at h
  split at h
  · cases h
  next hup =>
    obtain rfl := Option.some.inj h
    exact ⟨hup, directories, trail, hreads⟩

section Name

theorem isIdle_append_dot (hstem : stem ≠ []) : isIdle (stem ++ '.' :: old) = false := by
  obtain ⟨c, rest, rfl⟩ := List.exists_cons_of_ne_nil hstem
  simp [isIdle]

theorem append_dot_eq_up_iff (hstem : stem ≠ []) :
    stem ++ '.' :: old = ['.', '.'] ↔ stem = ['.'] ∧ old = [] := by
  obtain ⟨c, rest, rfl⟩ := List.exists_cons_of_ne_nil hstem
  cases rest <;> simp

theorem append_dot_ne_up (hstem : stem ≠ []) (hup : stem = ['.'] → old ≠ []) :
    stem ++ '.' :: old ≠ ['.', '.'] := by
  rw [Ne, append_dot_eq_up_iff hstem]
  exact fun h => hup h.1 h.2

theorem takeWhile_reverse_append (h : '.' ∉ part) (rest : List Char) :
    (part.reverse ++ rest).takeWhile (· ≠ '.') = part.reverse ++ rest.takeWhile (· ≠ '.') := by
  apply List.takeWhile_append_of_pos
  intro c hc
  simp only [decide_eq_true_eq]
  rintro rfl
  exact h (List.mem_reverse.mp hc)

/-- A dot in the first place does not cut a name. -/
theorem cutName_of_notMem (h : '.' ∉ name.tail) : cutName name = (name, none) := by
  cases name with
  | nil => rfl
  | cons c rest =>
      have hdrop : (c :: rest).reverse.drop (((c :: rest).reverse.takeWhile (· ≠ '.')).length + 1) = [] := by
        apply List.drop_eq_nil_of_le
        rw [List.reverse_cons, takeWhile_reverse_append (show '.' ∉ rest from h)]
        simp
      simp only [cutName, hdrop, List.reverse_nil, or_true, if_true]

/-- The last dot cuts a name. -/
theorem cutName_of_dot (hstem : stem ≠ []) (hold : '.' ∉ old) (hup : stem = ['.'] → old ≠ []) :
    cutName (stem ++ '.' :: old) = (stem, some old) := by
  have hreverse : (stem ++ '.' :: old).reverse = old.reverse ++ '.' :: stem.reverse := by simp
  have hbehind : (stem ++ '.' :: old).reverse.takeWhile (· ≠ '.') = old.reverse := by
    rw [hreverse, takeWhile_reverse_append hold]
    simp
  have hbefore : (stem ++ '.' :: old).reverse.drop (old.reverse.length + 1) = stem.reverse := by
    rw [hreverse, List.drop_append]
    simp
  have hname := append_dot_ne_up hstem hup
  simp only [cutName, hbehind, hbefore, hname, hstem, or_self, if_false, List.reverse_reverse]

theorem exists_dot (h : '.' ∈ name.tail) : ∃ stem old, name = stem ++ '.' :: old ∧ stem ≠ [] ∧ '.' ∉ old := by
  cases name with
  | nil => cases h
  | cons c rest =>
      obtain ⟨behind, before, hsplit, hbehind⟩ :=
        List.eq_append_cons_of_mem (List.mem_reverse.mpr (show '.' ∈ rest from h))
      refine ⟨c :: before.reverse, behind.reverse, ?_, by simp, by simpa using hbehind⟩
      rw [← List.reverse_reverse rest, hsplit]
      simp

end Name

/-- What another extension makes of a path that leads to something. -/
inductive Retitled (extension : List Char) : List Char → List Char → Prop
  /-- A name without extension gets it behind its end, where the path ends then. -/
  | added {path directories name trail : List Char} (reads : Reads path directories name trail)
      (hdot : '.' ∉ name.tail) : Retitled extension path (directories ++ name ++ '.' :: extension)
  /-- In a name with another extension it takes the place of that. -/
  | replaced {path directories stem old trail : List Char}
      (reads : Reads path directories (stem ++ '.' :: old) trail) (hstem : stem ≠ []) (hold : '.' ∉ old)
      (hup : stem = ['.'] → old ≠ [] ∧ trail ≠ []) (hnew : old ≠ extension) :
      Retitled extension path (directories ++ stem ++ '.' :: extension)
  /-- A name that is a way up but for its extension loses that and gets none, if it ends the path. -/
  | lost {path directories old : List Char} (reads : Reads path directories ('.' :: '.' :: old) [])
      (hold : '.' ∉ old) (hsome : old ≠ []) (hnew : old ≠ extension) :
      Retitled extension path (directories ++ ['.', '.'])

theorem Reads.extension?_eq (h : Reads path directories name trail) (hup : name ≠ ['.', '.']) :
    extension? path = (cutName name).2 := by
  rw [extension?, h.name?_eq, if_neg hup, Option.bind_some]

theorem Reads.putExtension_eq (h : Reads path directories name trail) (hup : name ≠ ['.', '.'])
    (hstem : '/' ∉ (cutName name).1) (hextension : '/' ∉ extension) :
    putExtension path extension = directories ++ (cutName name).1 ++ '.' :: extension := by
  obtain ⟨parts, htrunk, hjoin⟩ := h.exists_trunk
  have hfile : '/' ∉ (cutName name).1 ++ '.' :: extension := by
    simp [hstem, hextension]
  simp only [putExtension, h.name?_eq, if_neg hup, htrunk, List.dropLast_concat, hjoin _ hfile,
    List.append_assoc]

/-- A path that loses as many characters from its end as its extension has still leads to that stem. -/
theorem Reads.shorten (h : Reads path directories (stem ++ '.' :: old) trail) (hstem : stem ≠ []) :
    Reads (path.take (path.length - old.length)) directories (stem ++ '.' :: old.take trail.length)
      (trail.take (trail.length - old.length)) := by
  refine ⟨?_, h.above, ?_, ?_, h.trail.take _⟩
  · have hlength : path.length - old.length =
        (directories ++ (stem ++ ['.'])).length + trail.length := by
      simp [h.path_eq]
      omega
    have hsplit : path = directories ++ (stem ++ ['.']) ++ (old ++ trail) := by
      simp [h.path_eq]
    rw [hlength, hsplit, List.take_length_add_append, List.take_append]
    simp
  · have hslash := h.slash
    simp only [List.mem_append, List.mem_cons, not_or] at hslash ⊢
    exact ⟨hslash.1, hslash.2.1, fun hmem => hslash.2.2 (List.mem_of_mem_take hmem)⟩
  · exact isIdle_append_dot hstem

theorem Reads.withExtension_of_notMem (h : Reads path directories name trail) (hdot : '.' ∉ name.tail)
    (hextension : '/' ∉ extension) :
    extension? path = none ∧ withExtension path extension = directories ++ name ++ '.' :: extension := by
  have hup : name ≠ ['.', '.'] := by
    rintro rfl
    simp at hdot
  have hcut := cutName_of_notMem hdot
  have hnone : extension? path = none := by rw [h.extension?_eq hup, hcut]
  have hput := h.putExtension_eq hup (by rw [hcut]; exact h.slash) hextension
  rw [hcut] at hput
  refine ⟨hnone, ?_⟩
  rw [withExtension, hnone]
  exact hput

theorem Reads.withExtension_of_dot (h : Reads path directories (stem ++ '.' :: old) trail) (hstem : stem ≠ [])
    (hold : '.' ∉ old) (hup : stem = ['.'] → old ≠ [] ∧ trail ≠ []) (hextension : '/' ∉ extension) :
    extension? path = some old ∧ withExtension path extension = directories ++ stem ++ '.' :: extension := by
  have hsome' : stem = ['.'] → old ≠ [] := fun h => (hup h).1
  have hsome : extension? path = some old := by
    rw [h.extension?_eq (append_dot_ne_up hstem hsome'), cutName_of_dot hstem hold hsome']
  -- what is left of the old extension keeps the name from becoming a way up
  have hup' : stem = ['.'] → old.take trail.length ≠ [] := by
    intro hstem
    obtain ⟨hold, htrail⟩ := hup hstem
    simp [hold, htrail]
  have hname := append_dot_ne_up hstem hup'
  have hcut := cutName_of_dot hstem (fun h => hold (List.mem_of_mem_take h)) hup'
  have hslash : '/' ∉ stem := fun hmem => h.slash (List.mem_append_left _ hmem)
  have hput := (h.shorten hstem).putExtension_eq hname (by rw [hcut]; exact hslash) hextension
  rw [hcut] at hput
  refine ⟨hsome, ?_⟩
  rw [withExtension, hsome]
  exact hput

theorem Reads.withExtension_of_up (h : Reads path directories ('.' :: '.' :: old) []) (hold : '.' ∉ old)
    (hsome : old ≠ []) (extension : List Char) :
    extension? path = some old ∧ withExtension path extension = directories ++ ['.', '.'] := by
  have hold' : extension? path = some old := by
    rw [h.extension?_eq (by simpa using hsome)]
    exact congrArg Prod.snd (cutName_of_dot (show ['.'] ≠ [] by simp) hold fun _ => hsome)
  have hdots : Reads path directories (['.'] ++ '.' :: old) [] := h
  have hshort := hdots.shorten (by simp)
  have hnone : name? (path.take (path.length - old.length)) = none := by simp [hshort.name?_eq]
  refine ⟨hold', ?_⟩
  rw [withExtension, hold']
  simpa [putExtension, hnone] using hshort.path_eq

theorem Retitled.withExtension_eq (hextension : '/' ∉ extension) (h : Retitled extension path other) :
    extension? path ≠ some extension ∧ withExtension path extension = other := by
  cases h with
  | added reads hdot =>
      obtain ⟨hnone, hother⟩ := reads.withExtension_of_notMem hdot hextension
      exact ⟨by simp [hnone], hother⟩
  | replaced reads hstem hold hup hnew =>
      obtain ⟨hsome, hother⟩ := reads.withExtension_of_dot hstem hold hup hextension
      exact ⟨by simp [hsome, hnew], hother⟩
  | lost reads hold hsome hnew =>
      obtain ⟨hsome, hother⟩ := reads.withExtension_of_up hold hsome extension
      exact ⟨by simp [hsome, hnew], hother⟩

/-- Every path that leads to something by a name has a path with another extension. -/
theorem exists_retitled (hname : name? path = some name)
    (hnew : extension? path ≠ some extension) : ∃ other, Retitled extension path other := by
  obtain ⟨hup, directories, trail, reads⟩ := exists_reads_of_name? hname
  by_cases hdot : '.' ∈ name.tail
  · obtain ⟨stem, old, rfl, hstem, hold⟩ := exists_dot hdot
    have hsome : stem = ['.'] → old ≠ [] := fun h h' => hup ((append_dot_eq_up_iff hstem).mpr ⟨h, h'⟩)
    have hother : old ≠ extension := by
      rintro rfl
      rw [reads.extension?_eq hup, cutName_of_dot hstem hold hsome] at hnew
      exact hnew rfl
    by_cases hlost : stem = ['.'] ∧ trail = []
    · obtain ⟨rfl, rfl⟩ := hlost
      exact ⟨_, .lost reads hold (hsome rfl) hother⟩
    · have hkept : stem = ['.'] → old ≠ [] ∧ trail ≠ [] := fun h => ⟨hsome h, fun h' => hlost ⟨h, h'⟩⟩
      exact ⟨_, .replaced reads hstem hold hkept hother⟩
  · exact ⟨_, .added reads hdot⟩

/-- The new extension comes behind the whole path only if the path ends with a name without extension. -/
theorem retitled_append_iff :
    Retitled extension path (path ++ '.' :: extension) ↔
      ∃ directories name, Reads path directories name [] ∧ '.' ∉ name.tail := by
  constructor
  · generalize hother : path ++ '.' :: extension = other
    intro h
    have hlength := congrArg List.length hother
    cases h with
    | @added directories name trail reads hdot =>
        simp only [reads.path_eq, List.length_append, List.length_cons] at hlength
        obtain rfl : trail = [] := List.length_eq_zero_iff.mp (by omega)
        exact ⟨directories, name, reads, hdot⟩
    | replaced reads hstem hold hup hnew =>
        simp only [reads.path_eq, List.length_append, List.length_cons] at hlength
        omega
    | lost reads hold hsome hnew =>
        simp only [reads.path_eq, List.length_append, List.length_cons, List.length_nil] at hlength
        omega
  · rintro ⟨directories, name, reads, hdot⟩
    have hadded : Retitled extension path _ := .added reads hdot
    rwa [← List.append_nil name, ← List.append_assoc, ← reads.path_eq] at hadded

end TexProse.Path
