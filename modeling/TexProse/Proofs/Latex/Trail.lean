import TexProse.Proofs.Latex.Partition

/-!
# Where a document fails

A reading in an argument or a group knows where its bracket stands and how many are open behind it, so a
bracket that closes it encloses exactly the text that is read next. `Trail` lists how a text fails, one
site for each level down to the innermost. Main statement: `trail_of_read_error`.

## Implementation notes

A failure names its places as texts. A trail keeps the texts and the offsets themselves, and
`Trail.locations` says that the places are those of the sites.

-/

namespace TexProse.Latex
variable {π : Type}

/-- An offset in a text. -/
structure Site where
  text : String
  offset : Nat

namespace Site

/-- The place as a failure names it. -/
def location (site : Site) : String := (Source.ofString site.text).location site.offset

/-- A closing bracket stands at the site, and `inner` is what lies between it and the bracket that it
matches. -/
def Encloses (site : Site) (inner : String) : Prop :=
  ∃ bracket before after, bracket ≠ Bracket.angle ∧
    site.text.toList = before ++ bracket.opening :: inner.toList ++ bracket.closing :: after ∧
    site.offset = before.length + 1 + inner.length ∧ bracket.IsBalanced inner.toList

/-- No other bracket matches the one at the site. -/
theorem Encloses.unique {site : Site} {inner other : String} (h : site.Encloses inner)
    (hother : site.Encloses other) : inner = other := by
  obtain ⟨bracket, before, after, hbracket, htext, hoffset, hinner⟩ := h
  obtain ⟨bracket', before', after', hbracket', htext', hoffset', hinner'⟩ := hother
  have hlength : (before ++ bracket.opening :: inner.toList).length =
      (before' ++ bracket'.opening :: other.toList).length := by
    simp only [List.length_append, List.length_cons, String.length_toList]
    omega
  obtain ⟨hread, hclosing⟩ := List.append_inj (htext.symm.trans htext') hlength
  obtain rfl : bracket = bracket' := Bracket.closing_inj (List.cons.inj hclosing).1
  rw [← String.toList_inj]
  exact Bracket.eq_of_isBalanced hinner hinner' hread

end Site

/-- A bracket opens right before `start`, and `depth` brackets of its kind are open between the two
offsets. -/
def Opens (source : Source) (bracket : Bracket) (start offset depth : Nat) : Prop :=
  ∃ before inside, source.chars.toList.take offset = before ++ bracket.opening :: inside ∧
    start = before.length + 1 ∧ bracket.depthAfter 0 inside = some depth

/-- What a mode holds of the brackets around the offset is true of the text. -/
def Mode.Tracks (source : Source) (offset : Nat) : Mode → Prop
  | .argument _ bracket start depth => bracket ≠ .angle ∧ Opens source bracket start offset depth
  | .reopening _ bracket => bracket ≠ .angle ∧ source.char? offset = some bracket.opening
  | .group start depth => Opens source .curly (start + 1) offset depth
  | .text | .space _ | .comment | .quote | .name _ => True

section Opens
variable {here : Cursor} {bracket : Bracket} {start depth depth' : Nat}

theorem opens_here (hcount : here.offset < here.source.length) (hchar : here.char = bracket.opening) :
    Opens here.source bracket (here.offset + 1) (here.offset + 1) 0 := by
  refine ⟨here.source.chars.toList.take here.offset, [], ?_, ?_, rfl⟩
  · rw [Source.take_succ hcount]
    exact congrArg (fun c => _ ++ [c]) hchar
  · have hle : here.offset ≤ here.source.chars.toList.length := Nat.le_of_lt hcount
    rw [List.length_take, Nat.min_eq_left hle]

theorem Opens.next (h : Opens here.source bracket start here.offset depth)
    (hcount : here.offset < here.source.length)
    (hdepth : bracket.depthAfter depth [here.char] = some depth') :
    Opens here.source bracket start (here.offset + 1) depth' := by
  obtain ⟨before, inside, htake, hstart, hinside⟩ := h
  refine ⟨before, inside ++ [here.char], ?_, hstart, ?_⟩
  · rw [Source.take_succ hcount, htake, List.append_assoc, List.cons_append]
  · rw [Bracket.depthAfter_concat _ hinside, hdepth]

/-- The bracket that closes an open one encloses what was read since. -/
theorem Opens.encloses {text : String} {offset : Nat}
    (h : Opens (.ofString text) bracket start offset 0) (hbracket : bracket ≠ .angle)
    (hcount : offset < (Source.ofString text).length)
    (hchar : Cursor.char ⟨.ofString text, offset⟩ = bracket.closing) :
    Site.Encloses ⟨text, offset⟩ (Cursor.textSince ⟨.ofString text, offset⟩ start) := by
  obtain ⟨before, inside, htake, rfl, hinside⟩ := h
  have hread : text.toList.take offset = before ++ bracket.opening :: inside := htake
  have hlength : offset = before.length + 1 + inside.length := by
    have hle : offset ≤ text.toList.length := Nat.le_of_lt hcount
    have := congrArg List.length hread
    simp only [List.length_take, List.length_append, List.length_cons] at this
    omega
  have hinner : (Cursor.textSince ⟨.ofString text, offset⟩ (before.length + 1)).toList = inside := by
    rw [@Cursor.textSince_of_take ⟨.ofString text, offset⟩ _ _ _ htake, String.toList_ofList]
  have hsplit := Source.eq_take_append hcount
  rw [hchar] at hsplit
  refine ⟨bracket, before, text.toList.drop (offset + 1), hbracket, ?_, ?_, ?_⟩
  · rw [hinner, ← hread]
    exact hsplit
  · rw [← String.length_toList, hinner]
    exact hlength
  · rw [hinner]
    exact hinside

end Opens

section Step
variable {here : Cursor} (hcount : here.offset < here.source.length)
include hcount

theorem tracks_textRule (reading : Reading π) :
    (textRule here reading).2.mode.Tracks here.source (here.offset + 1) := by
  rw [textRule]
  dsimp only
  split_ifs with _ _ _ _ hgroup
  · trivial
  · trivial
  · trivial
  · trivial
  · exact opens_here hcount hgroup
  · cases missingSpace? here <;> trivial

theorem tracks_backToText (step : Step π) :
    (backToText here step).2.mode.Tracks here.source (here.offset + 1) :=
  tracks_textRule hcount _

/-- Every move keeps track of the brackets. -/
theorem Move.tracks [Package π] {settings : Settings} {nested : Nested π} {reading : Reading π}
    {step : Step π} (h : Move settings nested here reading step)
    (htracks : reading.mode.Tracks here.source here.offset) :
    step.2.mode.Tracks here.source (here.offset + 1) := by
  cases h with
  | text hmode => exact tracks_textRule hcount reading
  | blank hmode hc => simp only [Step.edit, hmode, Mode.Tracks]
  | endSpace hmode hc => exact tracks_backToText hcount _
  | remark hmode hc => simp only [Step.edit, hmode, Mode.Tracks]
  | endComment hmode hc => trivial
  | pair hmode hmark => trivial
  | straight hmode hmark hnotice => exact tracks_backToText hcount _
  | nameChar hmode hc => simp only [Step.edit, hmode, Mode.Tracks]
  | escape hmode hshort hc => trivial
  | openArgument hmode hlong hc hbracket =>
      obtain ⟨hne, hchar⟩ := Bracket.eq_opening_of_ofArgument? hbracket
      exact ⟨hne, opens_here hcount hchar⟩
  | nameSpace hmode hlong hc hbracket hblank => trivial
  | endName hmode hlong hc hbracket hblank => exact tracks_backToText hcount _
  | reopening hmode =>
      rw [hmode] at htracks
      constructor
      · exact htracks.1
      · apply opens_here hcount
        rw [Cursor.char, htracks.2, Option.getD_some]
  | inArgument hmode hdepth =>
      rw [hmode] at htracks
      exact ⟨htracks.1, htracks.2.next hcount hdepth⟩
  | nextArgument hmode hchar hnested hnext =>
      obtain ⟨c, hc, hbracket⟩ := Option.bind_eq_some_iff.mp hnext
      obtain ⟨hne, rfl⟩ := Bracket.eq_opening_of_ofArgument? hbracket
      exact ⟨hne, hc⟩
  | lastArgument hmode hchar hnested hnext =>
      rw [closeArgument]
      simp only [hnext]
      split <;> trivial
  | inGroup hmode hdepth =>
      rw [hmode] at htracks
      exact htracks.next hcount hdepth
  | endGroup hmode hchar hnested => trivial

end Step

variable [Package π] {settings : Settings} {nested : Nested π} {text : String}

theorem Reaches.tracks {source : Source} {initial : Reading π} {count : Nat} {ribbon : Ribbon Tag}
    {reading : Reading π} (hinitial : initial.mode = .text)
    (h : (tagger settings nested).Reaches source initial count ribbon reading) :
    reading.mode.Tracks source count := by
  induction h with
  | start =>
      rw [hinitial]
      trivial
  | @step count ribbon reading reading' window edits before hcount hcursor hlist hedits ih =>
      have hmove := move_of_outcome hedits
      rw [hcursor] at hmove
      exact @Move.tracks _ ⟨source, count⟩ hcount _ _ _ _ _ hmove ih

/-- How a text fails with a number of levels permitted: right away if there are none, at its end if a
bracket is open there, and otherwise as the text that a closing bracket encloses. -/
inductive Trail (settings : Settings) : Nat → String → Failure → List Site → Prop
  | tooDeep {text : String} : Trail settings 0 text (.tooDeep settings.maxNesting) []
  | unclosed {levels : Nat} {text : String} {offset : Nat} {bracket : Bracket}
      (hend : offset + 1 = text.length) (hbracket : bracket ≠ .angle) :
      Trail settings (levels + 1) text
        (.within (Site.location ⟨text, offset⟩) (.unclosed bracket.closing)) [⟨text, offset⟩]
  | inner {levels : Nat} {text inner : String} {offset : Nat} {cause : Failure} {trail : List Site}
      (hinner : Site.Encloses ⟨text, offset⟩ inner) (htrail : Trail settings levels inner cause trail) :
      Trail settings (levels + 1) text (.within (Site.location ⟨text, offset⟩) cause)
        (⟨text, offset⟩ :: trail)

/-- A text fails as its tagger fails at the end of the text or in a nested text. -/
theorem trail_of_fails {levels : Nat} {initial reading : Reading π} {failure : Failure}
    (hinitial : initial.mode = .text)
    (hnested : ∀ (inner : String) (session session' : Session π) (cause : Failure),
      (nested inner).outcome session = (.error cause, session') →
        ∃ trail, Trail settings levels inner cause trail)
    (h : (tagger settings nested).Fails (.ofString text) initial failure reading) :
    ∃ trail, Trail settings (levels + 1) text failure trail := by
  cases h with
  | @step count ribbon middle _ window cause before hcount hcursor hlist hcause =>
      have htracks := Reaches.tracks hinitial before
      have hstumble := stumble_of_outcome hcause
      rw [hcursor] at hstumble
      cases hstumble with
      | argument hmode hchar hfailed =>
          rw [hmode] at htracks
          obtain ⟨trail, htrail⟩ := hnested _ _ _ _ hfailed
          exact ⟨_, .inner (htracks.2.encloses htracks.1 hcount hchar) htrail⟩
      | group hmode hchar hfailed =>
          rw [hmode] at htracks
          obtain ⟨trail, htrail⟩ := hnested _ _ _ _ hfailed
          exact ⟨_, .inner (htracks.encloses (by decide) hcount hchar) htrail⟩
  | @ended ribbon middle _ window cause before hlength hcursor hlist hcause =>
      have htracks := Reaches.tracks hinitial before
      have hend : (Source.ofString text).length - 1 + 1 = text.length := by
        rw [Nat.sub_add_cancel hlength, Source.length_ofString]
      change (onEnd window).outcome middle = _ at hcause
      rw [outcome_onEnd] at hcause
      split at hcause <;> cases hcause
      next hmode =>
        rw [hmode] at htracks
        exact ⟨_, .unclosed hend htracks.1⟩
      next hmode =>
        rw [hmode] at htracks
        exact ⟨_, .unclosed hend htracks.1⟩
      next hmode => exact ⟨_, .unclosed hend (by decide)⟩

theorem trail_of_nestedProse {levels : Nat} {session session' : Session π} {failure : Failure}
    (h : (nestedProse settings levels text).outcome session = (.error failure, session')) :
    ∃ trail, Trail settings levels text failure trail := by
  induction levels generalizing text session session' failure with
  | zero =>
      cases h
      exact ⟨_, .tooDeep⟩
  | succ levels ih =>
      obtain ⟨reading, hfails, -⟩ := outcome_proseBy_error h
      apply trail_of_fails rfl _ hfails
      intro inner session session' cause hinner
      exact ih hinner

namespace Trail
variable {levels : Nat} {failure : Failure} {trail : List Site}

omit [Package π] in
theorem locations (h : Trail settings levels text failure trail) :
    failure.locations = trail.map Site.location := by
  induction h with
  | tooDeep => rfl
  | unclosed hend hbracket => rfl
  | inner hinner htrail ih => exact congrArg (List.cons _) ih

/-- A trail starts with its text, if it has a site. -/
theorem head_text (h : Trail settings levels text failure trail) :
    ∀ site ∈ trail.head?, site.text = text := by
  cases h <;> simp

theorem isChain (h : Trail settings levels text failure trail) :
    trail.IsChain fun outer inner => outer.Encloses inner.text := by
  induction h with
  | tooDeep => exact List.isChain_nil
  | unclosed hend hbracket => exact List.isChain_singleton _
  | inner hinner htrail ih =>
      apply List.isChain_cons.mpr
      constructor
      · intro site hsite
        rwa [htrail.head_text site hsite]
      · exact ih

/-- A trail that ends in a text below the last level has a site for each level. -/
theorem root (h : Trail settings levels text failure trail) :
    (failure.root = .tooDeep settings.maxNesting ∧ trail.length = levels ∧
        ∀ site ∈ trail.getLast?, ∃ inner, site.Encloses inner) ∨
      ((failure.root = .unclosed '}' ∨ failure.root = .unclosed ']') ∧ 1 ≤ trail.length ∧
        trail.length ≤ levels ∧ ∀ site ∈ trail.getLast?, site.offset + 1 = site.text.length) := by
  induction h with
  | tooDeep => exact .inl ⟨rfl, rfl, by simp⟩
  | @unclosed levels text offset bracket hend hbracket =>
      right
      refine ⟨?_, Nat.le_refl 1, Nat.le_add_left 1 levels, by simpa using hend⟩
      cases bracket with
      | curly => exact .inl rfl
      | square => exact .inr rfl
      | angle => exact absurd rfl hbracket
  | @inner levels text inner offset cause trail hinner htrail ih =>
      rcases ih with ⟨hroot, hlength, hlast⟩ | ⟨hroot, hpos, hlength, hlast⟩
      · left
        refine ⟨hroot, congrArg (· + 1) hlength, ?_⟩
        cases trail with
        | nil => simpa using ⟨inner, hinner⟩
        | cons next rest => simpa using hlast
      · right
        refine ⟨hroot, Nat.le_add_left 1 _, Nat.succ_le_succ hlength, ?_⟩
        cases trail with
        | nil => exact absurd hpos (by simp)
        | cons next rest => simpa using hlast

end Trail

/-- A document that cannot be read has an open bracket at the end of a text or lies too deep. Its places
are one for each level, down to the innermost text: each but the last is that of a closing bracket, and the
text it encloses is the one of the next. -/
theorem trail_of_read_error {packages : Chain π} {document : Document π} {failure : Failure}
    (h : (Document.withPackages settings packages text).read = (.error failure, document)) :
    ∃ trail : List Site, failure.locations = trail.map Site.location ∧
      trail.head?.map (·.text) = some text ∧
      trail.IsChain (fun outer inner => outer.Encloses inner.text) ∧
      ((failure.root = .tooDeep settings.maxNesting ∧ trail.length = settings.maxNesting + 1 ∧
          ∀ last ∈ trail.getLast?, ∃ inner, last.Encloses inner) ∨
        ((failure.root = .unclosed '}' ∨ failure.root = .unclosed ']') ∧ 1 ≤ trail.length ∧
          trail.length ≤ settings.maxNesting + 1 ∧
          ∀ last ∈ trail.getLast?, last.offset + 1 = last.text.length)) := by
  rw [Document.read_withPackages] at h
  rcases hscan : ((documentTagger settings).scan (.ofString text)).outcome
    { session := { packages := packages } } with ⟨cause | segments, reading⟩
  · rw [hscan] at h
    obtain rfl : cause = failure := by
      cases h
      rfl
    obtain ⟨trail, htrail⟩ := trail_of_fails rfl
      (fun inner session session' cause hinner => trail_of_nestedProse hinner)
      (Tagger.fails_of_scan hscan)
    refine ⟨trail, htrail.locations, ?_, htrail.isChain, htrail.root⟩
    cases htrail <;> rfl
  · rw [hscan] at h
    cases h

theorem trail_of_read_error_argument :
    ∃ (failure : Failure) (document : Document Bundled) (trail : List Site),
      (Document.withPackages {} (Chain.bundled {}) "a\x7b\\b[c\x7d d").read = (.error failure, document) ∧
        failure.locations = trail.map Site.location ∧ trail.head?.map (·.text) = some "a\x7b\\b[c\x7d d" ∧
        trail.IsChain (fun outer inner => outer.Encloses inner.text) := by
  have hfailed : (Document.withPackages {} (Chain.bundled {}) "a\x7b\\b[c\x7d d").read.1.isOk = false := by
    decide +kernel
  rcases hread : (Document.withPackages {} (Chain.bundled {}) "a\x7b\\b[c\x7d d").read with
    ⟨failure | _, document⟩
  · obtain ⟨trail, hlocations, hhead, hchain, -⟩ := trail_of_read_error hread
    exact ⟨failure, document, trail, rfl, hlocations, hhead, hchain⟩
  · rw [hread] at hfailed
    cases hfailed

end TexProse.Latex
