import TexProse.Proofs.Latex.Partition
import TexProse.Proofs.Tagging.Locality

/-!
# What a document does not know of the text ahead

The rules of a reading see no further than the character behind the current one, which tells whether another
argument follows. Main statement: `read_common`, which says of two documents with a common beginning that
what is over before its last character is the same in both, segments as well as failures.
-/

namespace TexProse.Latex
variable {π : Type}

section Rules
variable {here there : Cursor} (h : here.Resembles there)
include h

theorem missingSpace?_congr : missingSpace? here = missingSpace? there := by
  have hstop : here.offset + 2 ≤ here.offset + 2 := Nat.le_refl _
  rw [missingSpace?, missingSpace?, h.slice _ _ hstop, h.char, h.next?, h.previous?, h.location, h.offset]

theorem textRule_congr : textRule (π := π) here = textRule there := by
  funext reading
  simp only [textRule, h.char, h.offset, missingSpace?_congr h]

theorem backToText_congr (step : Step π) : backToText here step = backToText there step := by
  simp only [backToText, textRule_congr h]

theorem textSince_congr (start : Nat) : here.textSince start = there.textSince start := by
  rw [Cursor.textSince, Cursor.textSince, h.slice _ _ (Nat.le_add_right _ 2), h.offset]

theorem spaceRule_congr (start : Nat) : spaceRule (π := π) here start = spaceRule there start := by
  funext reading
  have hrun := (h.symm.slice start there.offset (Nat.le_add_right _ 2)).symm
  simp only [spaceRule, closeSpace, hrun, h.char, h.offset, backToText_congr h]

theorem commentRule_congr : commentRule (π := π) here = commentRule there := by
  funext reading
  simp only [commentRule, h.char, h.offset]

theorem quoteRule_congr (settings : Settings) :
    quoteRule (π := π) settings here = quoteRule settings there := by
  funext reading
  simp only [quoteRule, h.char, h.location, backToText_congr h]

theorem closeArgument_congr [Package π] (command : Command) (isEmpty : Bool) :
    closeArgument (π := π) here command isEmpty = closeArgument there command isEmpty := by
  funext reading
  simp only [closeArgument, h.next?]

theorem nameRule_congr [Package π] (start : Nat) :
    nameRule (π := π) here start = nameRule there start := by
  funext reading
  have hname := (h.symm.slice start (there.offset + 1) (Nat.le_succ _)).symm
  simp only [nameRule, hname, textSince_congr h, h.char, h.offset, backToText_congr h]

theorem argumentRule_congr [Package π] (nested : Nested π) (command : Command) (bracket : Bracket) (start depth : Nat) :
    argumentRule nested here command bracket start depth =
      argumentRule nested there command bracket start depth := by
  simp only [argumentRule, h.char, h.offset, textSince_congr h, closeArgument_congr h]

theorem groupRule_congr (nested : Nested π) (start depth : Nat) :
    groupRule nested here start depth = groupRule nested there start depth := by
  simp only [groupRule, h.char, textSince_congr h]

theorem reopeningRule_congr (command : Command) (bracket : Bracket) :
    reopeningRule (π := π) here command bracket = reopeningRule there command bracket := by
  funext reading
  simp only [reopeningRule, h.offset]

end Rules

variable [Package π] {settings : Settings}

theorem isLocal_tagger (settings : Settings) (nested : Nested π) : (tagger settings nested).IsLocal := by
  intro window window' h
  simp only [tagger, onChar, textRule_congr h, spaceRule_congr h, commentRule_congr h, quoteRule_congr h,
    nameRule_congr h, argumentRule_congr h, reopeningRule_congr h, groupRule_congr h]

theorem isPrefix_ofString (common more : String) :
    common.toList <+: (Source.ofString (common ++ more)).chars.toList :=
  ⟨more.toList, by simp⟩

namespace Document
variable {packages : Chain π} {common : String}

/-- What ends before the last character of a common beginning is the same in two documents. -/
theorem filter_spans_common {first second : String} {document document' : Document π}
    (h : 2 ≤ common.length)
    (hfirst : (withPackages settings packages (common ++ first)).read = (.ok (), document))
    (hsecond : (withPackages settings packages (common ++ second)).read = (.ok (), document')) :
    ∃ map map' spans spans', document.map = .ok map ∧ document'.map = .ok map' ∧ map.spans = .ok spans ∧
      map'.spans = .ok spans' ∧
      spans.filter (·.stop ≤ common.length - 2) = spans'.filter (·.stop ≤ common.length - 2) := by
  obtain ⟨map, ribbon, hmap, -, hcompletes, hprojects⟩ := exists_projects hfirst
  obtain ⟨map', ribbon', hmap', -, hcompletes', hprojects'⟩ := exists_projects hsecond
  refine ⟨map, map', _, _, hmap, hmap', hprojects.spans, hprojects'.spans, ?_⟩
  apply hcompletes.spansTo_eq (isLocal_tagger _ _) (isPrefix_ofString common first)
    (isPrefix_ofString common second) (isBlind_tagger _ _) _ hcompletes'
  rw [String.length_toList]
  omega

/-- A failure before the last character of a common beginning is one of both documents. -/
theorem read_error_common {first second : String} {document : Document π} {failure cause : Failure}
    {offset : Nat} (hoffset : offset + 2 ≤ common.length)
    (hfirst : (withPackages settings packages (common ++ first)).read = (.error failure, document))
    (hplace : failure = .within ((Source.ofString (common ++ first)).location offset) cause) :
    ∃ document', (withPackages settings packages (common ++ second)).read = (.error failure, document') ∧
      document'.session = document.session := by
  have hfails := (fails_of_read hfirst).of_common (isLocal_tagger _ _) (isPrefix_ofString common first)
    (isPrefix_ofString common second) (by rwa [String.length_toList]) hplace
  obtain ⟨document', hsecond, hstate⟩ := exists_read_of_fails hfails
  exact ⟨document', hsecond, congrArg Reading.session hstate⟩

end Document

/-- Two documents that begin alike, with at least two characters. If both can be read, the segments that end
before the last character of the common beginning are the same. If one of them fails there, the other fails
with the same failure, all its places included, and leaves the same packages and notices. -/
theorem read_common {packages : Chain π} {common : String} (h : 2 ≤ common.length) (first second : String) :
    (∀ document document' : Document π,
      (Document.withPackages settings packages (common ++ first)).read = (.ok (), document) →
      (Document.withPackages settings packages (common ++ second)).read = (.ok (), document') →
        ∃ map map' spans spans', document.map = .ok map ∧ document'.map = .ok map' ∧
          map.spans = .ok spans ∧ map'.spans = .ok spans' ∧
          spans.filter (·.stop ≤ common.length - 2) = spans'.filter (·.stop ≤ common.length - 2)) ∧
    ∀ (document : Document π) (failure cause : Failure) (offset : Nat), offset ≤ common.length - 2 →
      (Document.withPackages settings packages (common ++ first)).read = (.error failure, document) →
      failure = .within ((Source.ofString (common ++ first)).location offset) cause →
        ∃ document', (Document.withPackages settings packages (common ++ second)).read =
            (.error failure, document') ∧
          document'.session = document.session := by
  constructor
  · intro document document' hfirst hsecond
    exact Document.filter_spans_common h hfirst hsecond
  · intro document failure cause offset hoffset hfirst hplace
    exact Document.read_error_common (show offset + 2 ≤ common.length by omega) hfirst hplace

/-- The first document fails in a group, and so does every document that begins like it. -/
theorem read_common_unclosed :
    (∃ document document' map map' spans spans',
      (Document.withPackages {} (Chain.bundled {}) ("a \\emph{b} c" ++ " {d}")).read = (.ok (), document) ∧
      (Document.withPackages {} (Chain.bundled {}) ("a \\emph{b} c" ++ "\"")).read = (.ok (), document') ∧
      document.map = .ok map ∧ document'.map = .ok map' ∧ map.spans = .ok spans ∧ map'.spans = .ok spans' ∧
      spans.filter (·.stop ≤ 10) = spans'.filter (·.stop ≤ 10)) ∧
    ∀ second, ∃ document,
      (Document.withPackages {} (Chain.bundled {}) ("a\x7b\\b[\x7d c" ++ second)).read =
        (.error (.within "1:6 (5)" (.within "1:3 (2)" (.unclosed ']'))), document) := by
  constructor
  · have hfirst : (Document.withPackages {} (Chain.bundled {}) ("a \\emph{b} c" ++ " {d}")).read.1.isOk =
        true := by
      decide +kernel
    have hsecond : (Document.withPackages {} (Chain.bundled {}) ("a \\emph{b} c" ++ "\"")).read.1.isOk =
        true := by
      decide +kernel
    obtain ⟨document, hread⟩ := Document.exists_of_isOk hfirst
    obtain ⟨document', hread'⟩ := Document.exists_of_isOk hsecond
    obtain ⟨map, map', spans, spans', hmap, hmap', hspans, hspans', hsame⟩ :=
      (read_common (show 2 ≤ "a \\emph{b} c".length by decide) " {d}" "\"").1 document document' hread hread'
    exact ⟨document, document', map, map', spans, spans', hread, hread', hmap, hmap', hspans, hspans', hsame⟩
  · intro second
    have hfailed : (Document.withPackages {} (Chain.bundled {}) ("a\x7b\\b[\x7d c" ++ "")).read.1 =
        .error (.within "1:6 (5)" (.within "1:3 (2)" (.unclosed ']'))) := by
      decide +kernel
    rcases hread : (Document.withPackages {} (Chain.bundled {}) ("a\x7b\\b[\x7d c" ++ "")).read with
      ⟨result, document⟩
    obtain rfl : result = _ := (congrArg Prod.fst hread).symm.trans hfailed
    have hplace : Failure.within "1:6 (5)" (.within "1:3 (2)" (.unclosed ']')) =
        .within ((Source.ofString ("a\x7b\\b[\x7d c" ++ "")).location 5) (.within "1:3 (2)" (.unclosed ']')) := by
      decide +kernel
    obtain ⟨document', hread', -⟩ :=
      (read_common (show 2 ≤ "a\x7b\\b[\x7d c".length by decide) "" second).2 document _ _ 5 (by decide) hread
        hplace
    exact ⟨document', hread'⟩

end TexProse.Latex
