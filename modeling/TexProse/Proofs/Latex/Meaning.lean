import TexProse.Proofs.Latex.Construct

/-!
# The meaning of well-formed documents

A text of well-formed constructs is read for what they mean if it is not nested deeper than is permitted,
and is too deep otherwise. The induction is on the levels, and within a level along the constructs of one
text. Main statement: `read_wellFormed`.
-/

namespace TexProse.Latex
variable {π : Type} [Package π] {settings : Settings} {nested : Nested π}
variable {source : Source} {session : Session π} {before after : List Char} {mode : Mode}
variable {speech : Speech π} {levels : Nat}

theorem arrives_ofString (items : Items) :
    Arrives settings nested (.ofString (String.ofList items.chars)) session [] items.chars .text
      { packages := session.packages } := by
  have hchars : (Source.ofString (String.ofList items.chars)).chars.toList = items.chars :=
    String.toList_ofList
  have hstart := @stands_start π _ settings nested (.ofString (String.ofList items.chars)) session
  rw [hchars] at hstart
  exact ⟨_, hstart, rfl⟩

/-- The end of a text settles what is still open. -/
theorem Arrives.completes (hrests : mode.rests = true)
    (h : Arrives settings nested source session before [] mode speech) :
    ∃ ribbon reading, (tagger settings nested).Completes source { session := session } ribbon reading ∧
      Says ribbon reading speech := by
  obtain ⟨unsettled, ⟨hsource, ribbon, reading, hreach, rfl, hspeech⟩, rfl⟩ := h
  have hlength : before.length = source.length := by
    rw [Source.length, ← Array.length_toList, hsource, List.append_nil]
  rw [hlength] at hreach ⊢
  have hfits := Reaches.fits rfl rfl hreach
  rcases Nat.eq_zero_or_pos source.length with hzero | hpos
  · rw [hzero] at hreach
    cases hreach
    exact ⟨_, _, .empty hzero, hspeech⟩
  · obtain ⟨last, rest, hsettle⟩ := List.exists_cons_of_ne_nil hreach.isSolid.settle.ne_nil
    obtain ⟨segments, hlist⟩ := Tagger.exists_segments hreach.isSolid.settle
    have hsome : last.chars ≠ [] := (hreach.settled hpos).2 last (by simp [hsettle])
    have hended : ∀ {edits reading'},
        (onEnd ⟨⟨source, source.length - 1⟩, segments⟩).outcome reading = (.ok edits, reading') →
        (tagger settings nested).Completes source { session := session }
          (edits.foldl Ribbon.edit (last :: rest)) reading' := by
      intro edits reading' hedits
      have hended := Tagger.Completes.ended hreach hpos rfl hlist hedits
      rwa [hsettle, Ribbon.close_amending (isAmending_onEnd hedits) hsome] at hended
    -- the end only changes the rendering of the last segment, so it makes the edits of its mode as they are
    have hclosing := outcome_onEnd ⟨⟨source, source.length - 1⟩, segments⟩ reading
    cases hmode : reading.mode with
    | text =>
        rw [hmode] at hfits hclosing
        cases hfits with
        | text htag hempty =>
            exact ⟨_, _, hended hclosing, hsettle ▸ hspeech.settle fun hchars => (hempty hchars).1⟩
    | comment =>
        rw [hmode] at hfits hclosing
        cases hfits with
        | comment htag hchars =>
            rw [Ribbon.settle_cons hchars] at hsettle
            cases hsettle
            exact ⟨_, _, hended hclosing, hspeech⟩
    | space start =>
        rw [hmode] at hfits hclosing
        cases hfits with
        | space hchars hblank hstart =>
            rw [Ribbon.settle_cons hchars] at hsettle
            cases hsettle
            have hslice := Ribbon.slice_of_read hreach.chars hstart (Nat.le_refl _)
            obtain ⟨rendering, hfold, hclosed⟩ :=
              @Says.blank _ _ _ _ ⟨source, source.length - 1⟩ _ _ _ hchars hblank hslice hspeech
            simp only [Nat.sub_add_cancel hpos] at hclosing
            rw [Mode.settle, Cursor.textSince, hslice]
            exact ⟨_, _, hended hclosing, hfold ▸ hclosed⟩
    | name start =>
        rw [hmode] at hfits hclosing
        cases hfits with
        | @name _ last rest htag hchars =>
            rw [Ribbon.settle_cons hchars] at hsettle
            cases hsettle
            simp only [Nat.sub_add_cancel hpos] at hclosing
            obtain ⟨rendering, hfold, hresolved⟩ :=
              hspeech.resolve (show last.tag ≠ .text by simp [htag])
                { name := source.slice start source.length }
            exact ⟨_, _, hended hclosing, hfold ▸ hresolved⟩
    | _ =>
        rw [hmode] at hrests
        cases hrests

/-- A text that is read to its end is laid out, and its prose is what was said. -/
theorem Arrives.outcome_scan (hrests : mode.rests = true)
    (h : Arrives settings nested source session before [] mode speech) :
    ∃ segments reading ribbon,
      ((tagger settings nested).scan source).outcome { session := session } = (.ok segments, reading) ∧
        TagMap.Projects ⟨source, segments⟩ ribbon ∧ Says ribbon reading speech := by
  obtain ⟨ribbon, reading, hcompletes, hspeech⟩ := h.completes hrests
  obtain ⟨segments, hscan, hlist⟩ := hcompletes.outcome_scan (isBlind_tagger settings nested)
  have hvaried := hcompletes.isVaried (isOrderly_tagger settings nested)
  exact ⟨segments, reading, ribbon, hscan, TagMap.projects hlist hcompletes.chars hvaried, hspeech⟩

/-- Inside another text, the prose is what was said without the blanks at its ends. -/
theorem Arrives.outcome_nestedProse {text : String} (hrests : mode.rests = true)
    (h : Arrives settings (nestedProse settings levels) (.ofString text) session before [] mode speech) :
    ∃ session', (nestedProse settings (levels + 1) text).outcome session =
        (.ok (trim speech.prose), session') ∧
      session'.packages = speech.packages := by
  obtain ⟨segments, reading, ribbon, hscan, hprojects, hspeech⟩ := h.outcome_scan hrests
  refine ⟨reading.session, ?_, hspeech.packages⟩
  rw [nestedProse, outcome_proseBy, hscan, ← hspeech.prose]
  exact congrArg (·, reading.session) hprojects.prose

/-- Well-formed texts that are nested at least as deep as `levels` are refused as too deep. -/
def Refuses (settings : Settings) (nested : Nested π) (levels : Nat) : Prop :=
  ∀ (body : Items) (session : Session π), body.isWellFormed = true → levels ≤ body.depth →
    ∃ failure session', (nested (String.ofList body.chars)).outcome session = (.error failure, session') ∧
      failure.root = .tooDeep settings.maxNesting

/-- The scan fails where a text inside is too deep. -/
def Sinks (settings : Settings) (nested : Nested π) (source : Source) (session : Session π) : Prop :=
  ∃ failure reading, (tagger settings nested).Fails source { session := session } failure reading ∧
    failure.root = .tooDeep settings.maxNesting

section Refusal
variable {c : Char} {body : Items} (hrefuses : Refuses settings nested levels)
include hrefuses

/-- A bracket that closes a text too deep fails as the text does. -/
theorem Stands.sinks (h : Stands settings nested source session before (c :: after) mode speech)
    (hbody : body.isWellFormed = true) (hdepth : levels ≤ body.depth)
    (hstumble : ∀ {reading : Reading π} {failure : Failure} {session' : Session π}, reading.mode = mode →
      (nested (String.ofList body.chars)).outcome reading.session = (.error failure, session') →
      Stumble nested ⟨source, before.length⟩ reading failure { reading with session := session' }) :
    Sinks settings nested source session := by
  obtain ⟨hsource, ribbon, reading, hreach, hmode, -⟩ := h
  obtain ⟨-, hcount⟩ := Source.char_of_split hsource
  obtain ⟨failure, session', hnested, hroot⟩ := hrefuses body reading.session hbody hdepth
  exact ⟨_, _, Reaches.stumble hreach hcount (hstumble hmode hnested), hroot⟩

variable (hmeans : Means settings nested levels)
include hmeans

theorem Arguments.sinks {before : List Char} {speech : Speech π} {command : Command} {bracket : Bracket}
    {body : Items} (tail : Arguments) (hwell : (Arguments.cons bracket body tail).isWellFormed = true)
    (hdepth : levels < (Arguments.cons bracket body tail).depth)
    (h : Stands settings nested source session before
      (body.chars ++ bracket.closing :: (tail.chars ++ after))
      (.argument command bracket before.length 0) speech) :
    Sinks settings nested source session := by
  obtain ⟨hbracket, hbody, htail⟩ := Arguments.isWellFormed_cons.mp hwell
  rcases Nat.lt_or_ge body.depth levels with hshallow | hdeep
  · have hrest : levels < tail.depth := by
      rw [Arguments.depth] at hdepth
      omega
    cases tail with
    | nil => exact absurd hrest (Nat.not_lt_zero levels)
    | cons bracket' body' tail =>
        have hbracket' := (Arguments.isWellFormed_cons.mp htail).1
        exact Arguments.sinks tail htail hrest
          (h.throughArguments hmeans hbracket hbracket' hbody hshallow)
  · obtain ⟨hinside, hslice⟩ := h.throughArgument hbracket hbody
    obtain ⟨hchar, -⟩ := Source.char_of_split hinside.1
    apply hinside.sinks hrefuses hbody hdeep
    intro reading failure session' hmode hnested
    rw [← hslice] at hnested
    exact .argument hmode hchar hnested

theorem Item.sinks {item : Item} (hwell : item.isWellFormed = true) (hdepth : levels < item.depth)
    (hadmits : mode.admits ⟨source, before.length⟩ = true)
    (h : Arrives settings nested source session before (item.chars ++ after) mode speech) :
    Sinks settings nested source session := by
  cases item with
  | group body =>
      rw [Item.chars, List.cons_append, List.append_assoc] at h
      obtain ⟨hinside, hslice⟩ := h.throughGroup hadmits hwell
      obtain ⟨hchar, -⟩ := Source.char_of_split hinside.1
      apply hinside.sinks hrefuses hwell (Nat.le_of_lt_succ hdepth)
      intro reading failure session' hmode hnested
      rw [← hslice] at hnested
      exact .group hmode hchar hnested
  | command name arguments =>
      obtain ⟨hletters, harguments⟩ := Item.isWellFormed_command.mp hwell
      cases arguments with
      | nil => exact absurd hdepth (Nat.not_lt_zero levels)
      | cons bracket body tail =>
          have hbracket := (Arguments.isWellFormed_cons.mp harguments).1
          rw [Item.chars, Arguments.chars, List.cons_append, List.append_assoc, List.cons_append,
            List.append_assoc, List.cons_append] at h
          exact Arguments.sinks hrefuses hmeans tail harguments hdepth
            (h.throughCommand hadmits hletters hbracket)
  | _ => exact absurd hdepth (Nat.not_lt_zero levels)

/-- The first construct that is too deep ends the scan. -/
theorem Items.sinks {before : List Char} {mode : Mode} {speech : Speech π} (items : Items)
    (hwell : items.isWellFormed = true) (hdepth : levels < items.depth)
    (hadmits : ∀ head tail, items = .cons head tail → mode.admits ⟨source, before.length⟩ = true)
    (h : Arrives settings nested source session before items.chars mode speech) :
    Sinks settings nested source session := by
  cases items with
  | nil => exact absurd hdepth (Nat.not_lt_zero levels)
  | cons head tail =>
      obtain ⟨hhead, hprecedes, htail⟩ := Items.isWellFormed_cons.mp hwell
      have hfirst := hadmits head tail rfl
      rcases Nat.lt_or_ge levels head.depth with hdeep | hshallow
      · exact Item.sinks hrefuses hmeans hhead hdeep hfirst h
      · have hrest : levels < tail.depth := by
          rw [Items.depth] at hdepth
          omega
        have harrives := Item.arrives hmeans hhead htail hprecedes hshallow hfirst h
        apply Items.sinks tail htail hrest _ harrives
        intro next tail hnext
        exact Item.admits_leaves hhead htail hprecedes hnext harrives.split List.length_append

end Refusal

section Scan
variable {items : Items} (hmeans : Means settings nested levels) (hwell : items.isWellFormed = true)
include hmeans hwell

theorem Items.scan_means (session : Session π) (hdepth : items.depth ≤ levels) :
    ∃ segments reading ribbon,
      ((tagger settings nested).scan (.ofString (String.ofList items.chars))).outcome
        { session := session } = (.ok segments, reading) ∧
      TagMap.Projects ⟨.ofString (String.ofList items.chars), segments⟩ ribbon ∧
      Says ribbon reading (items.eval settings { packages := session.packages }) := by
  obtain ⟨mode, hrests, harrives⟩ :=
    Items.arrives hmeans items hwell hdepth rfl (fun _ _ _ => rfl) (arrives_ofString items)
  exact harrives.outcome_scan hrests

theorem Items.scan_refuses (hrefuses : Refuses settings nested levels) (session : Session π)
    (hdepth : levels < items.depth) :
    ∃ failure reading,
      ((tagger settings nested).scan (.ofString (String.ofList items.chars))).outcome
        { session := session } = (.error failure, reading) ∧
      failure.root = .tooDeep settings.maxNesting := by
  obtain ⟨failure, reading, hfails, hroot⟩ :=
    Items.sinks hrefuses hmeans items hwell hdepth (fun _ _ _ => rfl) (arrives_ofString items)
  exact ⟨failure, reading, hfails.outcome_scan (isBlind_tagger settings nested), hroot⟩

end Scan

/-- What is left of the levels decides whether a nested text is read for what it means or refused. -/
theorem nestedProse_means (settings : Settings) (levels : Nat) :
    Means settings (@nestedProse π _ settings levels) levels ∧
      Refuses settings (@nestedProse π _ settings levels) levels := by
  induction levels with
  | zero =>
      constructor
      · intro body packages hbody hdepth
        exact absurd hdepth (Nat.not_lt_zero _)
      · intro body session hbody hdepth
        exact ⟨_, session, rfl, rfl⟩
  | succ levels ih =>
      obtain ⟨hmeans, hrefuses⟩ := ih
      constructor
      · intro body packages hbody hdepth session hpackages
        subst hpackages
        obtain ⟨mode, hrests, harrives⟩ :=
          Items.arrives hmeans body hbody (Nat.le_of_lt_succ hdepth) rfl (fun _ _ _ => rfl)
            (arrives_ofString body)
        exact harrives.outcome_nestedProse hrests
      · intro body session hbody hdepth
        obtain ⟨failure, reading, hscan, hroot⟩ := Items.scan_refuses hmeans hbody hrefuses session hdepth
        refine ⟨failure, reading.session, ?_, hroot⟩
        rw [nestedProse, outcome_proseBy, hscan]

/-- A well-formed document is read for what it means: its prose is the prose of its meaning without the
blanks at the ends, its transcript holds them, and the packages are left as its commands leave them. Only
if it is nested deeper than is permitted it is refused, and for no other reason. -/
theorem read_wellFormed (packages : Chain π) (items : Items) (hwell : items.isWellFormed = true) :
    (items.depth ≤ settings.maxNesting →
      ∃ document map transcript,
        (Document.withPackages settings packages (String.ofList items.chars)).read = (.ok (), document) ∧
          document.map = .ok map ∧
          map.prose = .ok (trim (items.eval settings { packages := packages }).prose) ∧
          map.transcript = .ok transcript ∧
          transcript.prose = (items.eval settings { packages := packages }).prose ∧
          document.session.packages = (items.eval settings { packages := packages }).packages) ∧
    (settings.maxNesting < items.depth →
      ∃ failure document,
        (Document.withPackages settings packages (String.ofList items.chars)).read =
            (.error failure, document) ∧
          failure.root = .tooDeep settings.maxNesting) := by
  obtain ⟨hmeans, hrefuses⟩ := @nestedProse_means π _ settings settings.maxNesting
  constructor
  · intro hdepth
    obtain ⟨segments, reading, ribbon, hscan, hprojects, hspeech⟩ :=
      Items.scan_means hmeans hwell { packages := packages } hdepth
    obtain ⟨transcript, htranscript, hshown⟩ := hprojects.transcript
    rw [Document.read_withPackages, documentTagger, hscan]
    refine ⟨_, _, transcript, rfl, rfl, ?_, htranscript, ?_, hspeech.packages⟩
    · rw [hprojects.prose, hspeech.prose]
    · rw [hshown, hspeech.prose]
  · intro hdepth
    obtain ⟨failure, reading, hscan, hroot⟩ :=
      Items.scan_refuses hmeans hwell hrefuses { packages := packages } hdepth
    rw [Document.read_withPackages, documentTagger, hscan]
    exact ⟨failure, _, rfl, hroot⟩

/-- An acronym that is defined inside a group and used behind it. -/
def acronym : Items :=
  .cons (.text ['x']) (.cons (.blanks [' '])
    (.cons (.group (.cons (.command ['a', 'c', 'r', 'o']
        (.cons .curly (.cons (.text ['a']) .nil) (.cons .curly (.cons (.text ['b']) .nil) .nil))) .nil))
      (.cons (.blanks [' '])
        (.cons (.command ['a', 'c'] (.cons .curly (.cons (.text ['a']) .nil) .nil)) .nil))))

theorem read_wellFormed_acronym :
    (∃ document map,
      (Document.withPackages {} (Chain.bundled {})
          "x \x7b\\acro\x7ba\x7d\x7bb\x7d\x7d \\ac\x7ba\x7d").read = (.ok (), document) ∧
        document.map = .ok map ∧ map.prose = .ok "x b") ∧
    ∃ failure document,
      (Document.withPackages { maxNesting := 1 } (Chain.bundled {})
          "x \x7b\\acro\x7ba\x7d\x7bb\x7d\x7d \\ac\x7ba\x7d").read = (.error failure, document) ∧
        failure.root = .tooDeep 1 := by
  have hwell : acronym.isWellFormed = true := by decide
  have hdepth : acronym.depth = 2 := by decide
  have hchars : String.ofList acronym.chars =
      "x \x7b\\acro\x7ba\x7d\x7bb\x7d\x7d \\ac\x7ba\x7d" := by decide
  have hprose : trim (acronym.eval {} { packages := Chain.bundled {} }).prose = "x b" := by
    decide +kernel
  constructor
  · obtain ⟨document, map, -, hread, hmap, hmapped, -⟩ :=
      (@read_wellFormed _ _ {} (Chain.bundled {}) acronym hwell).1 (hdepth ▸ by decide)
    rw [hchars] at hread
    rw [hprose] at hmapped
    exact ⟨document, map, hread, hmap, hmapped⟩
  · obtain ⟨failure, document, hread, hroot⟩ :=
      (@read_wellFormed _ _ { maxNesting := 1 } (Chain.bundled {}) acronym hwell).2 (hdepth ▸ by decide)
    rw [hchars] at hread
    exact ⟨failure, document, hread, hroot⟩

end TexProse.Latex
