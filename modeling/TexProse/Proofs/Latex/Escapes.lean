import TexProse.Proofs.Latex.Acronyms
import TexProse.Proofs.Latex.Meaning
import TexProse.Proofs.Latex.Transparency

/-!
# Escapes inside brackets

Where text is read, an escape is a command of one character, whatever the character. Inside a group or an
argument the brackets are counted first, and an escaped one counts like any other. So literal text means the
same between brackets if its curly brackets match, escaped as they are. If one of them stays open the text
around it cannot be read, and if one closes too early it closes what is around it. Main statement:
`read_escapes`.
-/

namespace TexProse.Latex

/-- What literal text is made of: the characters of words, blanks, and escapes. -/
inductive Glyph where
  | plain (c : Char) (h : isPlain c = true)
  | blank (c : Char) (h : isBlank c = true)
  | escape (c : Char) (h : isLetter c = false)

/-- What literal text has said so far, with the run of blanks behind it. -/
structure Hearing where
  said : String := ""
  run : List Char := []

/-- What is said once the run of blanks is over. -/
def Hearing.close (hearing : Hearing) : String :=
  if hearing.run = [] then hearing.said
  else hearing.said ++ (blankFor hearing.said (String.ofList hearing.run)).getD ""

namespace Glyph

def chars : Glyph → List Char
  | plain c _ | blank c _ => [c]
  | escape c _ => ['\\', c]

def hear (hearing : Hearing) : Glyph → Hearing
  | plain c _ => { said := hearing.close ++ String.ofList [c] }
  | blank c _ => { hearing with run := hearing.run ++ [c] }
  | escape c _ => { said := hearing.close ++ (Kernel.escape c).toString }

/-- What is said behind literal text. -/
def prose (said : String) (glyphs : List Glyph) : String := (glyphs.foldl hear { said := said }).close

variable {glyph : Glyph} {glyphs : List Glyph} {depth : Nat}

/-- Only an escaped bracket closes anything. -/
theorem exists_eq_escape (h : Bracket.curly.depthAfter depth glyph.chars = none) :
    depth = 0 ∧ ∃ hc, glyph = escape '}' hc := by
  cases glyph with
  | plain c hc =>
      have hnone : ∀ c' ∈ [c], isBracket c' = false := by simpa using isBracket_of_isPlain hc
      cases (depthAfter_of_isBracket (by decide) hnone depth).symm.trans h
  | blank c hc =>
      have hnone : ∀ c' ∈ [c], isBracket c' = false := by simpa using isBracket_of_isBlank hc
      cases (depthAfter_of_isBracket (by decide) hnone depth).symm.trans h
  | escape c hc =>
      have hskip : Bracket.curly.depthAfter depth ['\\', c] = Bracket.curly.depthAfter depth [c] :=
        Bracket.depthAfter_cons (by decide) (by decide) depth [c]
      rcases depthAfter_char_cases .curly depth c with ⟨depth', hdepth⟩ | ⟨hzero, rfl⟩
      · cases (hskip.trans hdepth).symm.trans h
      · exact ⟨hzero, hc, rfl⟩

/-- Text that closes more than is open has an escaped bracket that does. -/
theorem exists_early (h : Bracket.curly.depthAfter depth (glyphs.flatMap chars) = none) :
    ∃ before hc after, glyphs = before ++ escape '}' hc :: after ∧
      Bracket.curly.depthAfter depth (before.flatMap chars) = some 0 := by
  induction glyphs generalizing depth with
  | nil => cases h
  | cons glyph rest ih =>
      rw [List.flatMap_cons, Bracket.depthAfter_append] at h
      cases hdepth : Bracket.curly.depthAfter depth glyph.chars with
      | none =>
          obtain ⟨rfl, hc, rfl⟩ := exists_eq_escape hdepth
          exact ⟨[], hc, rest, rfl, rfl⟩
      | some middle =>
          rw [hdepth, Option.bind_some] at h
          obtain ⟨before, hc, after, rfl, hbefore⟩ := ih h
          refine ⟨glyph :: before, hc, after, rfl, ?_⟩
          rw [List.flatMap_cons, Bracket.depthAfter_append, hdepth, Option.bind_some, hbefore]

/-- No argument begins with literal text or with the bracket behind it. -/
theorem ofArgument?_head (glyphs : List Glyph) :
    ((glyphs.flatMap chars ++ ['}']).head?.bind Bracket.ofArgument?) = none := by
  cases glyphs with
  | nil => rfl
  | cons glyph rest =>
      cases glyph with
      | plain c hc => exact ofArgument?_eq_none (isBracket_of_isPlain hc)
      | blank c hc => exact ofArgument?_eq_none (isBracket_of_isBlank hc)
      | escape c hc => rfl

end Glyph

section Ask

/-- The bundled packages answer and learn nothing, unless an acronym is defined. -/
theorem ask_bundled (settings : Settings) (said : String) {command : Command} (h : command.name ≠ "\\acro") :
    (Speech.mk said (Chain.bundled settings)).ask command =
      ⟨said ++ (((Kernel.answer command).or (Euro.answer command)).or
        (Article.answer { settings := settings } command)).getD "", Chain.bundled settings⟩ := by
  obtain ⟨hpackage, htext⟩ := Chain.ask_ofArticle { settings := settings } command
  rw [Article.learn_of_ne h] at hpackage
  rw [Speech.ask, Chain.bundled_eq, hpackage, htext]

theorem ask_escape (settings : Settings) (said : String) (c : Char) :
    (Speech.mk said (Chain.bundled settings)).ask { name := String.ofList ['\\', c] } =
      ⟨said ++ (Kernel.escape c).toString, Chain.bundled settings⟩ := by
  have hname : String.ofList ['\\', c] ≠ "\\acro" := by
    intro h
    have hchars : ['\\', c] = "\\acro".toList := String.toList_ofList.symm.trans (congrArg String.toList h)
    exact absurd (show 2 = 5 from congrArg List.length hchars) (by decide)
  rw [ask_bundled settings said hname]
  simp [Kernel.answer]

theorem ask_backslash (settings : Settings) (said : String) :
    (Speech.mk said (Chain.bundled settings)).ask { name := "\\" } = ⟨said, Chain.bundled settings⟩ := by
  rw [ask_bundled settings said (by decide)]
  have hplain : Article.isHeadline "\\" = false := by decide +kernel
  simp [Kernel.answer, Euro.answer, Article.answer, hplain]

theorem ask_textbf (settings : Settings) (said value : String) :
    (Speech.mk said (Chain.bundled settings)).ask { name := "\\textbf", arguments := [value] } =
      ⟨said ++ value, Chain.bundled settings⟩ := by
  rw [ask_bundled settings said (show "\\textbf" ≠ "\\acro" by decide)]
  have hplain : Article.isHeadline "\\textbf" = false := by decide +kernel
  simp [Kernel.answer, Euro.answer, Article.answer, hplain]

end Ask

theorem stands_bundled {settings : Settings} {nested : Nested Bundled} {source : Source}
    {session : Session Bundled} {chars : List Char} (hpackages : session.packages = Chain.bundled settings)
    (hsource : source.chars.toList = chars) :
    Stands settings nested source session [] chars .text ⟨"", Chain.bundled settings⟩ := by
  have hstart := @stands_start Bundled _ settings nested source session
  rwa [hpackages, hsource] at hstart

/-- A scan with the bundled packages has read the characters `before` and heard what they say. -/
inductive Hears (settings : Settings) (nested : Nested Bundled) (source : Source)
    (session : Session Bundled) :
    List Char → List Char → Hearing → Prop
  | text {before after : List Char} {said : String}
      (h : Stands settings nested source session before after .text ⟨said, Chain.bundled settings⟩) :
      Hears settings nested source session before after { said := said }
  | space {earlier run after : List Char} {said : String} (hsome : run ≠ [])
      (h : Stands settings nested source session (earlier ++ run) after (.space earlier.length)
        ⟨said, Chain.bundled settings⟩) :
      Hears settings nested source session (earlier ++ run) after { said := said, run := run }

namespace Hears
variable {settings : Settings} {nested : Nested Bundled} {source : Source} {session : Session Bundled}
variable {before after : List Char} {hearing : Hearing}

/-- What was heard is said once the run of blanks is over, and any other character ends it. -/
theorem arrives (h : Hears settings nested source session before after hearing) :
    ∃ mode, mode.rests = true ∧
      Arrives settings nested source session before after mode ⟨hearing.close, Chain.bundled settings⟩ ∧
      ∀ c rest, after = c :: rest → isBlank c = false → mode.admits ⟨source, before.length⟩ = true := by
  cases h with
  | text h => exact ⟨.text, rfl, h.arrives, fun _ _ _ _ => rfl⟩
  | @space earlier run _ said hsome h =>
      refine ⟨_, rfl, ⟨_, h, ?_⟩, ?_⟩
      · have hslice := Source.slice_of_split h.1 List.length_append
        rw [Mode.settle, Cursor.textSince, hslice, Hearing.close, if_neg hsome]
        rfl
      · rintro c rest rfl hc
        rw [Mode.admits, (Source.char_of_split h.1).1, hc]
        rfl

/-- A character that opens nothing ends a run of blanks and says itself. -/
theorem char {c : Char} (h : Hears settings nested source session before (c :: after) hearing)
    (hblank : isBlank c = false) (hmode : Mode.ofChar before.length c = .text) :
    Stands settings nested source session (before ++ [c]) after .text
      ⟨hearing.close ++ String.ofList [c], Chain.bundled settings⟩ := by
  obtain ⟨mode, -, harrives, hadmits⟩ := h.arrives
  exact harrives.char (hadmits c after rfl hblank) hmode

theorem glyph {glyph : Glyph}
    (h : Hears settings nested source session before (glyph.chars ++ after) hearing) :
    Hears settings nested source session (before ++ glyph.chars) after (glyph.hear hearing) := by
  cases glyph with
  | plain c hc =>
      exact .text (h.char (isBlank_of_isPlain hc) (ofChar_of_isPlain hc before.length))
  | blank c hc =>
      cases h with
      | text h =>
          have hopened := h.arrives.opening rfl (Mode.ofChar_of_isBlank before.length hc) (by simp)
          exact .space (by simp [Glyph.chars]) hopened
      | @space earlier run _ said hsome h =>
          have hmore := h.blank hc
          rw [List.append_assoc] at hmore ⊢
          exact .space (by simp [Glyph.chars]) hmore
  | escape c hc =>
      obtain ⟨mode, -, harrives, hadmits⟩ := h.arrives
      have hasked := harrives.throughEscape (hadmits '\\' (c :: after) rfl (by decide)) hc
      rw [ask_escape] at hasked
      exact .text hasked

theorem glyphs {glyphs : List Glyph}
    (h : Hears settings nested source session before (glyphs.flatMap Glyph.chars ++ after) hearing) :
    Hears settings nested source session (before ++ glyphs.flatMap Glyph.chars) after
      (glyphs.foldl Glyph.hear hearing) := by
  induction glyphs generalizing before hearing with
  | nil => simpa using h
  | cons glyph rest ih =>
      rw [List.flatMap_cons, List.append_assoc] at h
      rw [List.flatMap_cons, ← List.append_assoc]
      exact ih h.glyph

end Hears

section Contents
variable {settings : Settings} {nested : Nested Bundled} {session : Session Bundled} {levels : Nat}
variable {glyphs : List Glyph} {text : String} {after : List Char}

/-- Literal text at the start of a text is heard. -/
theorem arrives_glyphs (hpackages : session.packages = Chain.bundled settings)
    (htext : text.toList = glyphs.flatMap Glyph.chars ++ after) :
    ∃ mode, mode.rests = true ∧
      Arrives settings nested (.ofString text) session (glyphs.flatMap Glyph.chars) after mode
        ⟨Glyph.prose "" glyphs, Chain.bundled settings⟩ ∧
      ∀ c rest, after = c :: rest → isBlank c = false →
        mode.admits ⟨.ofString text, (glyphs.flatMap Glyph.chars).length⟩ = true := by
  have hstart : Hears settings nested (.ofString text) session []
      (glyphs.flatMap Glyph.chars ++ after) {} := .text (stands_bundled hpackages htext)
  exact hstart.glyphs.arrives

/-- Literal text yields what it says. -/
theorem yields_glyphs (hlevels : 0 < levels)
    (htext : text.toList = glyphs.flatMap Glyph.chars) :
    Yields (nestedProse settings levels) text (Chain.bundled settings)
      (trim (Glyph.prose "" glyphs)) (Chain.bundled settings) := by
  obtain ⟨levels, rfl⟩ := Nat.exists_eq_add_one_of_ne_zero (Nat.ne_of_gt hlevels)
  intro session hpackages
  obtain ⟨mode, hrests, harrives, -⟩ :=
    @arrives_glyphs settings (nestedProse settings levels) _ _ _ _ hpackages
      (htext.trans (List.append_nil _).symm)
  obtain ⟨session', hnested, hpackages'⟩ := harrives.outcome_nestedProse hrests
  exact ⟨session', hnested, hpackages'⟩

/-- The backslash of an escape whose character is cut off says nothing. -/
theorem yields_glyphs_backslash (hlevels : 0 < levels)
    (htext : text.toList = glyphs.flatMap Glyph.chars ++ ['\\']) :
    Yields (nestedProse settings levels) text (Chain.bundled settings)
      (trim (Glyph.prose "" glyphs)) (Chain.bundled settings) := by
  obtain ⟨levels, rfl⟩ := Nat.exists_eq_add_one_of_ne_zero (Nat.ne_of_gt hlevels)
  intro session hpackages
  obtain ⟨mode, -, harrives, hadmits⟩ :=
    @arrives_glyphs settings (nestedProse settings levels) _ _ _ _ hpackages htext
  have hnamed := harrives.opening (hadmits '\\' [] rfl (by decide))
    (show _ = Mode.name (glyphs.flatMap Glyph.chars).length from rfl) (by simp)
  have hslice : (Source.ofString text).slice (glyphs.flatMap Glyph.chars).length
      (glyphs.flatMap Glyph.chars ++ ['\\']).length = "\\" :=
    Source.slice_of_split hnamed.1 List.length_append
  have hasked : Arrives settings (nestedProse settings levels) (.ofString text) session
      (glyphs.flatMap Glyph.chars ++ ['\\']) [] (.name (glyphs.flatMap Glyph.chars).length)
      ⟨Glyph.prose "" glyphs, Chain.bundled settings⟩ := by
    refine ⟨_, hnamed, ?_⟩
    rw [Mode.settle, Cursor.textSince, hslice]
    exact ask_backslash settings _
  obtain ⟨session', hnested, hpackages'⟩ := hasked.outcome_nestedProse rfl
  exact ⟨session', hnested, hpackages'⟩

end Contents

/-- Characters at the start of a text open a curly bracket, and what that encloses is said as it is read. The
mode counts the brackets inside. -/
structure Envelops (settings : Settings) (nested : Nested Bundled) (opener : List Char)
    (within : Nat → Mode) : Prop where
  opens {source : Source} {session : Session Bundled} {after : List Char}
    (hpackages : session.packages = Chain.bundled settings)
    (hsource : source.chars.toList = opener ++ after) :
    Stands settings nested source session opener after (within 0) ⟨"", Chain.bundled settings⟩
  inside {source : Source} {session : Session Bundled} {before after : List Char} {c : Char}
    {depth depth' : Nat} {speech : Speech Bundled}
    (h : Stands settings nested source session before (c :: after) (within depth) speech)
    (hdepth : Bracket.curly.depthAfter depth [c] = some depth') :
    Stands settings nested source session (before ++ [c]) after (within depth') speech
  closes {source : Source} {session : Session Bundled} {inner after : List Char} {value : String}
    (h : Stands settings nested source session (opener ++ inner) ('}' :: after) (within 0)
      ⟨"", Chain.bundled settings⟩)
    (hyields : Yields nested (String.ofList inner) (Chain.bundled settings) value (Chain.bundled settings))
    (hnext : after.head?.bind Bracket.ofArgument? = none) :
    Stands settings nested source session (opener ++ inner ++ ['}']) after .text
      ⟨value, Chain.bundled settings⟩
  fails {window : Window Tag} {reading : Reading Bundled} {depth : Nat}
    (hmode : reading.mode = within depth) :
    (onEnd window).outcome reading = (.error (.unclosed '}'), reading)

section Envelopes
variable (settings : Settings) (nested : Nested Bundled)

/-- A group says what it encloses. -/
theorem envelops_group : Envelops settings nested ['{'] (.group 0) where
  opens {source session after} hpackages hsource := by
    have hstart : Arrives settings nested source session [] ('{' :: after) .text
        ⟨"", Chain.bundled settings⟩ := ⟨_, stands_bundled hpackages hsource, rfl⟩
    exact hstart.opening rfl rfl (by simp)
  inside h hdepth := h.inGroup hdepth
  closes {source session inner after value} h hyields hnext := by
    have hslice : source.slice 1 (['{'] ++ inner).length = String.ofList inner :=
      Source.slice_of_split h.1 List.length_append
    rw [← hslice] at hyields
    have hclosed := h.closeGroup rfl hyields
    rwa [String.empty_append] at hclosed
  fails hmode := by
    rw [outcome_onEnd, hmode]
    rfl

/-- So does an argument that is set in bold. -/
theorem envelops_textbf :
    Envelops settings nested ('\\' :: "textbf".toList ++ ['{'])
      (.argument { name := "\\textbf" } .curly 8) where
  opens {source session after} hpackages hsource := by
    rw [List.append_assoc] at hsource
    have hstart : Arrives settings nested source session []
        ('\\' :: ("textbf".toList ++ Bracket.curly.opening :: after)) .text ⟨"", Chain.bundled settings⟩ :=
      ⟨_, stands_bundled hpackages hsource, rfl⟩
    have hname : isName "textbf".toList = true := by decide
    exact hstart.throughCommand rfl hname (show Bracket.curly ≠ .angle by decide)
  inside h hdepth := h.inArgument hdepth
  closes {source session inner after value} h hyields hnext := by
    have hslice : source.slice 8 ('\\' :: "textbf".toList ++ ['{'] ++ inner).length = String.ofList inner :=
      Source.slice_of_split h.1 List.length_append
    rw [← hslice] at hyields
    have hclosed := h.lastArgument rfl hyields hnext
    rw [show [] ++ [value] = [value] from rfl, ask_textbf, String.empty_append] at hclosed
    exact hclosed
  fails hmode := by
    rw [outcome_onEnd, hmode]
    rfl

theorem exists_envelops {opener : String} (h : opener ∈ ["\x7b", "\\textbf\x7b"]) :
    ∃ within, Envelops settings nested opener.toList within := by
  simp only [List.mem_cons, List.not_mem_nil, or_false] at h
  rcases h with rfl | rfl
  · exact ⟨_, envelops_group settings nested⟩
  · exact ⟨_, envelops_textbf settings nested⟩

end Envelopes

/-- The document with the bundled packages can be read, and this is its prose. -/
def Shows (settings : Settings) (text prose : String) : Prop :=
  ∃ document map, (Document.ofString settings text).read = (.ok (), document) ∧ document.map = .ok map ∧
    map.prose = .ok prose

/-- The document with the bundled packages cannot be read, as a curly bracket is open at the end. -/
def StaysOpen (settings : Settings) (text : String) : Prop :=
  ∃ failure document, (Document.ofString settings text).read = (.error failure, document) ∧
    failure.root = .unclosed '}'

section Documents
variable {settings : Settings} {text : String} {before : List Char} {mode : Mode}

theorem Arrives.shows {said : String} {packages : Chain Bundled} (hrests : mode.rests = true)
    (h : Arrives settings (nestedProse settings settings.maxNesting) (.ofString text)
      { packages := Chain.bundled settings } before [] mode ⟨said, packages⟩) :
    Shows settings text (trim said) := by
  obtain ⟨segments, reading, ribbon, hscan, hprojects, hspeech⟩ := h.outcome_scan hrests
  rw [Shows, Document.ofString, Document.read_withPackages, documentTagger, hscan]
  refine ⟨_, _, rfl, rfl, ?_⟩
  rw [hprojects.prose, hspeech.prose]

/-- A text that ends in a mode that may not end fails there. -/
theorem Stands.staysOpen {speech : Speech Bundled} (hsome : before ≠ [])
    (hfails : ∀ {window : Window Tag} {reading : Reading Bundled}, reading.mode = mode →
      (onEnd window).outcome reading = (.error (.unclosed '}'), reading))
    (h : Stands settings (nestedProse settings settings.maxNesting) (.ofString text)
      { packages := Chain.bundled settings } before [] mode speech) :
    StaysOpen settings text := by
  obtain ⟨hsource, ribbon, reading, hreach, hmode, -⟩ := h
  have hlength : before.length = (Source.ofString text).length := by
    rw [Source.length, ← Array.length_toList, hsource, List.append_nil]
  rw [hlength] at hreach
  obtain ⟨segments, hlist⟩ := Tagger.exists_segments hreach.isSolid.settle
  have hpos : 0 < (Source.ofString text).length := hlength ▸ List.length_pos_iff.mpr hsome
  let window : Window Tag := ⟨⟨.ofString text, (Source.ofString text).length - 1⟩, segments⟩
  have hcursor : window.toCursor = ⟨.ofString text, (Source.ofString text).length - 1⟩ := rfl
  have hend := Tagger.Fails.ended hreach hpos hcursor hlist (hfails hmode)
  obtain ⟨document, hread, -⟩ := Document.exists_read_of_fails hend
  exact ⟨_, document, hread, rfl⟩

end Documents

namespace Envelops
variable {settings : Settings} {opener : List Char} {within : Nat → Mode} {text : String}
variable (h : Envelops settings (nestedProse settings settings.maxNesting) opener within)
include h

/-- From the start of a document to a place inside its bracket. -/
theorem stands {inner rest : List Char} {depth : Nat} (hdepth : Bracket.curly.depthAfter 0 inner = some depth)
    (htext : text.toList = opener ++ inner ++ rest) :
    Stands settings (nestedProse settings settings.maxNesting) (.ofString text)
      { packages := Chain.bundled settings } (opener ++ inner) rest (within depth)
      ⟨"", Chain.bundled settings⟩ := by
  rw [List.append_assoc] at htext
  exact (h.opens rfl htext).inside (fun hstands hdepth => h.inside hstands hdepth) hdepth

/-- A bracket inside that is not closed takes the last one for its own. -/
theorem staysOpen {inner : List Char} {depth : Nat}
    (hdepth : Bracket.curly.depthAfter 0 inner = some (depth + 1))
    (htext : text.toList = opener ++ inner ++ ['}']) : StaysOpen settings text := by
  have hclosed : Bracket.curly.depthAfter 0 (inner ++ ['}']) = some depth :=
    (Bracket.depthAfter_concat '}' hdepth).trans rfl
  have hsplit : text.toList = opener ++ (inner ++ ['}']) ++ [] := by simp [htext]
  exact (h.stands hclosed hsplit).staysOpen (by simp) fun hmode => h.fails hmode

variable (hlevels : 0 < settings.maxNesting) {glyphs before after : List Glyph}
include hlevels

/-- Literal text whose brackets match says between brackets what it says without them. -/
theorem shows_balanced (hdepth : Bracket.curly.depthAfter 0 (glyphs.flatMap Glyph.chars) = some 0)
    (htext : text.toList = opener ++ glyphs.flatMap Glyph.chars ++ ['}']) :
    Shows settings text (trim (Glyph.prose "" glyphs)) := by
  have hyields := @yields_glyphs settings _ glyphs _ hlevels String.toList_ofList
  have hclosed := h.closes (h.stands hdepth htext) hyields rfl
  have hshows := hclosed.arrives.shows rfl
  rwa [trim_trim] at hshows

/-- The first escaped bracket that closes too early closes the bracket around it, and leaves its backslash
inside and what is behind it outside. -/
theorem shows_early (hdepth : Bracket.curly.depthAfter 0 (before.flatMap Glyph.chars) = some 0)
    (htext : text.toList =
      opener ++ (before.flatMap Glyph.chars ++ '\\' :: '}' :: after.flatMap Glyph.chars) ++ ['}']) :
    Shows settings text (trim (Glyph.prose (trim (Glyph.prose "" before)) after ++ "\x7d")) := by
  have hinner : Bracket.curly.depthAfter 0 (before.flatMap Glyph.chars ++ ['\\']) = some 0 :=
    (Bracket.depthAfter_concat '\\' hdepth).trans rfl
  have hsplit : text.toList = opener ++ (before.flatMap Glyph.chars ++ ['\\']) ++
      '}' :: (after.flatMap Glyph.chars ++ ['}']) := by
    simp [htext]
  have hyields := @yields_glyphs_backslash settings _ before _ hlevels String.toList_ofList
  have hclosed := h.closes (h.stands hinner hsplit) hyields (Glyph.ofArgument?_head after)
  have hlast := (Hears.text hclosed).glyphs.char (show isBlank '}' = false by decide) rfl
  exact hlast.arrives.shows rfl

end Envelops

/-- Literal text with any escapes is read for what it says. Between the brackets of a group, or of an argument
that is set in bold, it is read the same if its curly brackets match, escaped as they are. If one of them is
open at the end nothing is read. If one closes too early it closes the bracket around it, so that its
backslash is lost, what is behind it stands outside, and the last bracket is text. -/
theorem read_escapes (settings : Settings) (hlevels : 0 < settings.maxNesting) (glyphs : List Glyph) :
    let body := glyphs.flatMap Glyph.chars
    let prose := trim (Glyph.prose "" glyphs)
    Shows settings (String.ofList body) prose ∧
      ∀ opener ∈ ["\x7b", "\\textbf\x7b"],
        let enclosed := opener ++ String.ofList body ++ "\x7d"
        (Bracket.curly.depthAfter 0 body = some 0 → Shows settings enclosed prose) ∧
        (∀ depth, Bracket.curly.depthAfter 0 body = some (depth + 1) → StaysOpen settings enclosed) ∧
        (Bracket.curly.depthAfter 0 body = none →
          ∃ before hc after, glyphs = before ++ Glyph.escape '}' hc :: after ∧
            Bracket.curly.IsBalanced (before.flatMap Glyph.chars) ∧
            Shows settings enclosed (trim (Glyph.prose (trim (Glyph.prose "" before)) after ++ "\x7d"))) := by
  intro body prose
  constructor
  · obtain ⟨mode, hrests, harrives, -⟩ :=
      @arrives_glyphs settings (nestedProse settings settings.maxNesting)
        { packages := Chain.bundled settings } glyphs (String.ofList body) [] rfl
        (String.toList_ofList.trans (List.append_nil _).symm)
    exact harrives.shows hrests
  · intro opener hopener enclosed
    obtain ⟨within, henvelops⟩ := exists_envelops settings (nestedProse settings settings.maxNesting) hopener
    have htext : enclosed.toList = opener.toList ++ body ++ ['}'] := by simp [enclosed]
    refine ⟨?_, ?_, ?_⟩
    · intro hdepth
      exact henvelops.shows_balanced hlevels hdepth htext
    · intro depth hdepth
      exact henvelops.staysOpen hdepth htext
    · intro hdepth
      obtain ⟨before, hc, after, rfl, hbefore⟩ := Glyph.exists_early hdepth
      have hsplit : enclosed.toList = opener.toList ++
          (before.flatMap Glyph.chars ++ '\\' :: '}' :: after.flatMap Glyph.chars) ++ ['}'] := by
        simp [htext, body, Glyph.chars]
      exact ⟨before, hc, after, rfl, hbefore, henvelops.shows_early hlevels hbefore hsplit⟩

theorem read_escapes_braces :
    0 < ({} : Settings).maxNesting ∧
      Shows {} "\\\x7ba\\\x7d" "\x7ba\x7d" ∧
      Shows {} "\x7b\\\x7ba\\\x7d\x7d" "\x7ba\x7d" ∧
      Shows {} "\\textbf\x7b\\\x7ba\\\x7d\x7d" "\x7ba\x7d" := by
  have hlevels : 0 < ({} : Settings).maxNesting := by decide
  obtain ⟨hbare, henclosed⟩ := read_escapes {} hlevels
    [.escape '{' (by decide +kernel), .plain 'a' (by decide +kernel), .escape '}' (by decide +kernel)]
  have hprose : trim (Glyph.prose ""
      [.escape '{' (by decide +kernel), .plain 'a' (by decide +kernel), .escape '}' (by decide +kernel)]) =
      "\x7ba\x7d" := by
    decide +kernel
  rw [hprose] at hbare henclosed
  have hdepth : Bracket.curly.depthAfter 0 "\\\x7ba\\\x7d".toList = some 0 := by decide
  exact ⟨hlevels, hbare, (henclosed "\x7b" (by simp)).1 hdepth, (henclosed "\\textbf\x7b" (by simp)).1 hdepth⟩

/-- An escaped bracket stands for itself, but opens a bracket inside a group that then stays open. -/
theorem escaped_bracket_opens :
    ((Document.ofString {} "\\\x7b").read.2.map.bind TagMap.prose).toOption = some "\x7b" ∧
      (Document.ofString {} "\x7b\\\x7b\x7d").read.1.isOk = false := by
  decide +kernel

end TexProse.Latex
