import TexProse.Proofs.Latex.Moves
import TexProse.Proofs.Tagging.Spans

/-!
# The segments of a document

The rules of a reading look at the text alone, and no step retags a character after the one behind it.
Main statement: `read_partitions`, which says that a document that was read is cut into segments without
gap or overlap, that neighbours differ in their tags, and that every projection of it succeeds.
-/

namespace TexProse.Latex
variable {π : Type} [Package π] {settings : Settings} {nested : Nested π}

theorem isBlind_tagger (settings : Settings) (nested : Nested π) :
    (tagger settings nested).IsBlind where
  onChar window window' h := by simp only [tagger, onChar, h]
  onEnd window window' h := by simp only [tagger, onEnd, h]

section Calm
variable (here : Cursor) (reading : Reading π)

omit [Package π] in
theorem isCalm_textRule : Edit.IsCalm (textRule here reading).1 := by
  rw [textRule]
  intro tag
  dsimp only
  split_ifs <;> simp [Step.into]

omit [Package π] in
theorem isAmending_closeSpace (start stop : Nat) :
    ∀ e ∈ (closeSpace here start stop reading).1, e.IsAmending := by
  rw [closeSpace]
  split_ifs <;> simp [Step.edit, Edit.IsAmending]

theorem isAmending_resolve (command : Command) :
    ∀ e ∈ (Step.resolve command reading).1, e.IsAmending := by
  rw [Step.resolve]
  split <;> simp [Step.emit, Step.edit, Edit.IsAmending]

omit [Package π] in
theorem isCalm_closeSpace (start stop : Nat) :
    Edit.IsCalm (closeSpace here start stop reading).1 :=
  Edit.isCalm_of_isAmending (isAmending_closeSpace here reading start stop)

theorem isCalm_resolve (command : Command) : Edit.IsCalm (Step.resolve command reading).1 :=
  Edit.isCalm_of_isAmending (isAmending_resolve reading command)

omit [Package π] in
theorem isCalm_backToText {step : Step π} (h : Edit.IsCalm step.1) :
    Edit.IsCalm (backToText here step).1 := by
  apply h.append
  apply Edit.IsCalm.append _ (isCalm_textRule _ _)
  intro tag
  simp [Step.into]

end Calm

theorem Move.isOrderly {here : Cursor} {reading : Reading π} {step : Step π}
    (h : Move settings nested here reading step) : Edit.IsOrderly step.1 := by
  have hsingle : ∀ e : Edit Tag, Edit.IsOrderly [e] := fun e => List.pairwise_singleton _ e
  cases h with
  | text hmode => exact (isCalm_textRule _ _).isOrderly
  | blank hmode hc => exact List.Pairwise.nil
  | endSpace hmode hc => exact (isCalm_backToText here (isCalm_closeSpace _ _ _ _)).isOrderly
  | remark hmode hc => exact List.Pairwise.nil
  | endComment hmode hc => exact hsingle _
  | pair hmode hmark => exact Edit.IsCalm.isOrderly_append (fun tag => by simp [Step.emit]) (hsingle _)
  | straight hmode hmark hnotice => exact (isCalm_backToText here fun tag => by simp).isOrderly
  | nameChar hmode hc => exact List.Pairwise.nil
  | escape hmode hshort hc => exact (isCalm_resolve _ _).isOrderly_append (hsingle _)
  | openArgument hmode hlong hc hbracket => exact hsingle _
  | nameSpace hmode hlong hc hbracket hblank => exact (isCalm_resolve _ _).isOrderly_append (hsingle _)
  | endName hmode hlong hc hbracket hblank => exact (isCalm_backToText here (isCalm_resolve _ _)).isOrderly
  | reopening hmode => exact hsingle _
  | inArgument hmode hdepth => exact List.Pairwise.nil
  | nextArgument hmode hchar hnested hnext => exact hsingle _
  | lastArgument hmode hchar hnested hnext =>
      rw [closeArgument]
      simp only [hnext]
      split
      · apply Edit.IsCalm.isOrderly_append _ (hsingle _)
        exact Edit.IsCalm.append (fun tag => by simp [Step.edit]) (isCalm_resolve _ _)
      · exact (isCalm_resolve _ _).isOrderly_append (by simp [Edit.IsOrderly, Step.into])
  | inGroup hmode hdepth => exact List.Pairwise.nil
  | endGroup hmode hchar hnested =>
      exact Edit.IsCalm.isOrderly_append (fun tag => by simp [Step.emit]) (hsingle _)

/-- What the end of the text comes to. -/
theorem outcome_onEnd (window : Window Tag) (reading : Reading π) :
    (onEnd window).outcome reading =
      match reading.mode with
      | .space start =>
        let step := closeSpace window.toCursor start (window.offset + 1) reading
        (.ok step.1, step.2)
      | .quote => (.ok [.append "\""], reading)
      | .name start =>
        let step := resolveAlone (window.source.slice start (window.offset + 1)) reading
        (.ok step.1, step.2)
      | .argument _ bracket _ _ | .reopening _ bracket => (.error (.unclosed bracket.closing), reading)
      | .group _ _ => (.error (.unclosed Bracket.curly.closing), reading)
      | .text | .comment => (.ok [], reading) := by
  obtain ⟨mode, spaced, session⟩ := reading
  cases mode <;> rfl

theorem isAmending_onEnd {window : Window Tag} {reading reading' : Reading π} {edits : List (Edit Tag)}
    (h : (onEnd window).outcome reading = (.ok edits, reading')) : ∀ e ∈ edits, e.IsAmending := by
  rw [outcome_onEnd] at h
  split at h <;> cases h
  · exact isAmending_closeSpace _ _ _ _
  · simp [Edit.IsAmending]
  · exact isAmending_resolve _ _
  · simp
  · simp

theorem isOrderly_tagger (settings : Settings) (nested : Nested π) :
    (tagger settings nested).IsOrderly where
  onChar h := (move_of_outcome h).isOrderly
  onEnd h := (Edit.isCalm_of_isAmending (isAmending_onEnd h)).isOrderly

/-- Nested prose is that of a scan, which always has one. -/
theorem outcome_proseBy (text : String) (session : Session π) :
    (proseBy (tagger settings nested) text).outcome session =
      match ((tagger settings nested).scan (.ofString text)).outcome { session := session } with
      | (.ok segments, reading) => (TagMap.prose ⟨.ofString text, segments⟩, reading.session)
      | (.error failure, reading) => (.error failure, reading.session) := by
  rcases hscan : ((tagger settings nested).scan (.ofString text)).outcome { session := session } with
    ⟨failure | segments, reading⟩
  all_goals
    change (match ((tagger settings nested).scan (.ofString text)).outcome { session := session } with
      | (result, reading) =>
        (result.bind fun segments => TagMap.prose ⟨.ofString text, segments⟩, reading.session)) = _
    rw [hscan]
    rfl

/-- A text that was scanned is laid out on a ribbon, which all its projections show. -/
theorem exists_projects_of_scan {source : Source} {initial reading : Reading π}
    {segments : Segmentation Tag}
    (h : ((tagger settings nested).scan source).outcome initial = (.ok segments, reading)) :
    ∃ ribbon, (tagger settings nested).Completes source initial ribbon reading ∧
      TagMap.Projects ⟨source, segments⟩ ribbon := by
  obtain ⟨ribbon, hcompletes, hlist⟩ := Tagger.exists_completes h
  exact ⟨ribbon, hcompletes,
    TagMap.projects hlist hcompletes.chars (hcompletes.isVaried (isOrderly_tagger ..))⟩

theorem outcome_proseBy_error {text : String} {session session' : Session π} {failure : Failure}
    (h : (proseBy (tagger settings nested) text).outcome session = (.error failure, session')) :
    ∃ reading, (tagger settings nested).Fails (.ofString text) { session := session } failure reading ∧
      reading.session = session' := by
  rw [outcome_proseBy] at h
  rcases hscan : ((tagger settings nested).scan (.ofString text)).outcome { session := session } with
    ⟨cause | segments, reading⟩
  · rw [hscan] at h
    cases h
    exact ⟨reading, Tagger.fails_of_scan hscan, rfl⟩
  · obtain ⟨ribbon, -, hprojects⟩ := exists_projects_of_scan hscan
    rw [hscan] at h
    simp only [hprojects.prose] at h
    cases h

namespace Document

/-- Reading a document is a scan of its text. -/
theorem read_withPackages (settings : Settings) (packages : Chain π) (text : String) :
    (withPackages settings packages text).read =
      match ((documentTagger settings).scan (.ofString text)).outcome
        { session := { packages := packages } } with
      | (.ok segments, reading) =>
        (.ok (), ⟨{ source := .ofString text, tagger := documentTagger settings, state := reading
                    phase := .finished ⟨.ofString text, segments⟩ }⟩)
      | (.error failure, reading) =>
        (.error failure, ⟨{ source := .ofString text, tagger := documentTagger settings
                            state := reading, phase := .failed }⟩) := by
  rcases hscan : ((documentTagger settings).scan (.ofString text)).outcome
    { session := { packages := packages } } with ⟨_ | _, _⟩
  all_goals
    have hrun : (documentTagger settings).scan (.ofString text) { session := { packages := packages } } = _ :=
      hscan
    simp only [read, withPackages, Pass.run, hrun]

omit [Package π] in
theorem exists_of_isOk {document : Document π} (h : document.read.1.isOk = true) :
    ∃ document', document.read = (.ok (), document') := by
  rcases hread : document.read with ⟨failure | ⟨⟩, document'⟩
  · rw [hread] at h
    cases h
  · exact ⟨document', rfl⟩

/-- A document that was read is laid out on a ribbon, which all its projections show. -/
theorem exists_projects {packages : Chain π} {text : String} {document : Document π}
    (h : (withPackages settings packages text).read = (.ok (), document)) :
    ∃ map ribbon, document.map = .ok map ∧ map.source = .ofString text ∧
      (documentTagger settings).Completes (.ofString text) { session := { packages := packages } }
        ribbon document.pass.state ∧
      map.Projects ribbon := by
  rw [read_withPackages] at h
  rcases hscan : ((documentTagger settings).scan (.ofString text)).outcome
    { session := { packages := packages } } with ⟨failure | segments, reading⟩
  · rw [hscan] at h
    cases h
  · rw [hscan] at h
    cases h
    obtain ⟨ribbon, hcompletes, hprojects⟩ := exists_projects_of_scan hscan
    exact ⟨_, ribbon, rfl, rfl, hcompletes, hprojects⟩

/-- A document that cannot be read fails as the scan of its text. -/
theorem fails_of_read {packages : Chain π} {text : String} {document : Document π} {failure : Failure}
    (h : (withPackages settings packages text).read = (.error failure, document)) :
    (documentTagger settings).Fails (.ofString text) { session := { packages := packages } } failure
      document.pass.state := by
  rw [read_withPackages] at h
  rcases hscan : ((documentTagger settings).scan (.ofString text)).outcome
    { session := { packages := packages } } with ⟨cause | segments, reading⟩
  · rw [hscan] at h
    cases h
    exact Tagger.fails_of_scan hscan
  · rw [hscan] at h
    cases h

/-- Where the scan of its text can fail a document cannot be read. -/
theorem exists_read_of_fails {packages : Chain π} {text : String} {failure : Failure} {reading : Reading π}
    (h : (documentTagger settings).Fails (.ofString text) { session := { packages := packages } } failure
      reading) :
    ∃ document, (withPackages settings packages text).read = (.error failure, document) ∧
      document.pass.state = reading := by
  have hscan : ((documentTagger settings).scan (.ofString text)).outcome
      { session := { packages := packages } } = _ := h.outcome_scan (isBlind_tagger _ _)
  rw [read_withPackages, hscan]
  exact ⟨_, rfl, rfl⟩

end Document

/-- A document that was read is cut into segments: their boundaries ascend from the start of the text,
none stands at its end, neighbours differ, and the texts of the segments make up the source. All
projections succeed. -/
theorem read_partitions {packages : Chain π} {text : String} {document : Document π}
    (h : (Document.withPackages settings packages text).read = (.ok (), document)) :
    ∃ map spans, document.map = .ok map ∧ map.spans = .ok spans ∧
      (∀ (σ : Type) (callback : Boundary Tag → String → StateM σ Unit) (seen : σ),
        ((map.forEach callback).run seen).1 = .ok ()) ∧
      (∃ prose, map.prose = .ok prose) ∧
      (∀ first stop, ∃ prose, map.proseIn first stop = .ok prose) ∧
      (∃ transcript, map.transcript = .ok transcript) ∧
      spans.map (·.toBoundary) = map.boundaries ∧
      map.boundaries.IsChain (fun a b => a.tag ≠ b.tag) ∧
      map.boundaries.Pairwise (fun a b => a.start < b.start) ∧
      map.boundaries.head?.map (·.start) = some 0 ∧
      (text ≠ "" → ∀ boundary ∈ map.boundaries, boundary.start < text.length) ∧
      (text = "" → spans = [⟨{ start := 0, tag := .text }, 0, ""⟩]) ∧
      String.join (spans.map (·.text)) = text := by
  obtain ⟨map, ribbon, hmap, hsource, hcompletes, hprojects⟩ := Document.exists_projects h
  have hchars : ribbon.chars = text.toList := by
    rw [hcompletes.chars]
    rfl
  have hanchored := hcompletes.isSolid.isAnchored
  have hvaried := hcompletes.isVaried (isOrderly_tagger ..)
  obtain ⟨transcript, htranscript, -⟩ := hprojects.transcript
  refine ⟨map, ribbon.spans, hmap, hprojects.spans, ?_, ⟨_, hprojects.prose⟩, ?_,
    ⟨transcript, htranscript⟩, ?_, ?_, ?_, ?_, ?_, ?_, ?_⟩
  · intro σ callback seen
    rw [TagMap.forEach, hprojects.spans]
    rfl
  · intro first stop
    rw [TagMap.proseIn, hprojects.spans]
    exact ⟨_, rfl⟩
  · rw [hprojects.boundaries, Ribbon.map_toBoundary_spans]
  · rw [hprojects.boundaries]
    exact Ribbon.isChain_boundaries hvaried
  · rw [hprojects.boundaries]
    exact hanchored.ascending
  · rw [hprojects.boundaries]
    exact hanchored.head
  · intro htext boundary hb
    have hlength : 0 < (Source.ofString text).length := by
      rw [Source.length_ofString, ← String.length_toList]
      exact List.length_pos_iff.mpr fun hnil => htext (String.toList_eq_nil_iff.mp hnil)
    rw [hprojects.boundaries] at hb
    have hlt := Ribbon.start_lt_of_mem (hcompletes.full hlength) boundary hb
    rwa [hchars, String.length_toList] at hlt
  · rintro rfl
    rw [hcompletes.eq_single rfl]
    rfl
  · rw [Ribbon.join_text_spans, hchars, String.ofList_toList]

theorem read_partitions_emphasis :
    ∃ document map spans,
      (Document.withPackages {} (Chain.bundled {}) "a \\emph{b} \"c").read = (.ok (), document) ∧
        document.map = .ok map ∧ map.spans = .ok spans ∧
        map.boundaries.IsChain (fun a b => a.tag ≠ b.tag) ∧
        String.join (spans.map (·.text)) = "a \\emph{b} \"c" := by
  have hok : (Document.withPackages {} (Chain.bundled {}) "a \\emph{b} \"c").read.1.isOk = true := by
    decide +kernel
  obtain ⟨document, hread⟩ := Document.exists_of_isOk hok
  obtain ⟨map, spans, hmap, hspans, -, -, -, -, -, hchain, -, -, -, -, hjoin⟩ := read_partitions hread
  exact ⟨document, map, spans, hread, hmap, hspans, hchain, hjoin⟩

end TexProse.Latex
