import Mathlib.Data.List.DropRight
import TexProse.Proofs.Latex.Course
import TexProse.Proofs.Tagging.Relabel

/-!
# Transparent groups

A pair of curly brackets around a text with balanced ones is a group and nothing else: it is cut out whole,
read one level further down, and shown as what it reads. The permitted levels enter a reading only where
they run out, and there only as the number that the failure names, so a document in brackets with one level
more comes to what the document alone comes to. Main statement: `read_group`.
-/

namespace TexProse

/-- The same failure with another number of permitted levels. -/
def Failure.withLevels (levels : Nat) : Failure → Failure
  | .tooDeep _ => .tooDeep levels
  | .within location cause => .within location (cause.withLevels levels)
  | failure => failure

theorem trimChars_trimChars (cs : List Char) : trimChars (trimChars cs) = trimChars cs := by
  have hback (cs : List Char) : trimChars cs = (cs.dropWhile isBlank).rdropWhile isBlank := rfl
  have hfront : (trimChars cs).dropWhile isBlank = trimChars cs := by
    apply List.dropWhile_eq_self_iff.mpr
    intro hl
    have hstart : trimChars cs <+: cs.dropWhile isBlank := List.rdropWhile_prefix isBlank _
    rw [hstart.getElem hl]
    exact List.dropWhile_get_zero_not isBlank cs _
  rw [hback, hfront, hback, List.rdropWhile_idempotent]

theorem trim_trim (s : String) : trim (trim s) = trim s := by
  rw [← String.toList_inj, toList_trim, toList_trim, trimChars_trimChars]

namespace Latex
variable {π : Type}

section Relabel
variable [Package π] {relabel : Failure → Failure} {settings : Settings} {nested nested' : Nested π}

omit [Package π] in
theorem relabels_inSession {α : Type} {first second : Action (Session π) α}
    (h : Action.Relabels relabel first second) :
    Action.Relabels relabel (inSession first) (inSession second) := by
  intro reading
  rw [outcome_inSession, outcome_inSession, h reading.session]

omit [Package π] in
theorem relabels_perform (step : Reading π → Step π) :
    Action.Relabels relabel (perform step) (perform step) :=
  Action.Relabels.of_ok fun reading => ⟨(step reading).1, rfl⟩

variable (h : ∀ text, Action.Relabels relabel (nested text) (nested' text))
include h

theorem relabels_argumentRule (here : Cursor) (command : Command) (bracket : Bracket)
    (start depth : Nat) :
    Action.Relabels relabel (argumentRule nested here command bracket start depth)
      (argumentRule nested' here command bracket start depth) := by
  unfold argumentRule
  dsimp only
  split
  · cases depth with
    | succ depth => exact relabels_perform _
    | zero => exact (relabels_inSession (h _)).bind fun argument => relabels_perform _
  · split
    · exact relabels_perform _
    · exact Action.Relabels.pure _

omit [Package π] in
theorem relabels_groupRule (here : Cursor) (start depth : Nat) :
    Action.Relabels relabel (groupRule nested here start depth)
      (groupRule nested' here start depth) := by
  unfold groupRule
  dsimp only
  split
  · cases depth with
    | succ depth => exact relabels_perform _
    | zero => exact (relabels_inSession (h _)).bind fun prose => relabels_perform _
  · split
    · exact relabels_perform _
    · exact Action.Relabels.pure _

/-- The permitted levels play no part in the rules of one text. -/
theorem relabels_onChar (levels : Nat) (window : Window Tag) :
    Action.Relabels relabel (onChar settings nested window)
      (onChar { settings with maxNesting := levels } nested' window) := by
  intro reading
  rw [outcome_onChar, outcome_onChar]
  cases reading.mode with
  | argument command bracket start depth =>
      exact relabels_argumentRule h window.toCursor command bracket start depth reading
  | group start depth => exact relabels_groupRule h window.toCursor start depth reading
  | _ => rfl

omit h in
theorem relabels_onEnd (hunclosed : ∀ c, relabel (.unclosed c) = .unclosed c) (window : Window Tag) :
    Action.Relabels relabel (onEnd window : Action (Reading π) (List (Edit Tag))) (onEnd window) := by
  intro reading
  rw [outcome_onEnd]
  cases reading.mode with
  | argument command bracket start depth => simp only [Except.mapError, hunclosed]
  | reopening command bracket => simp only [Except.mapError, hunclosed]
  | group start depth => simp only [Except.mapError, hunclosed]
  | _ => rfl

theorem relabels_tagger (levels : Nat) (hunclosed : ∀ c, relabel (.unclosed c) = .unclosed c) :
    (tagger settings nested).Relabels relabel
      (tagger { settings with maxNesting := levels } nested') :=
  ⟨rfl, relabels_onChar h levels, relabels_onEnd hunclosed⟩

/-- Nested prose is that of a scan, so it is relabelled as the scan is. -/
theorem relabels_proseBy (levels : Nat) (hunclosed : ∀ c, relabel (.unclosed c) = .unclosed c)
    (hwithin : ∀ location cause, relabel (.within location cause) = .within location (relabel cause))
    (text : String) :
    Action.Relabels relabel (proseBy (tagger settings nested) text)
      (proseBy (tagger { settings with maxNesting := levels } nested') text) := by
  intro session
  have hrules : (tagger settings nested).Relabels relabel
      (tagger { settings with maxNesting := levels } nested') := relabels_tagger h levels hunclosed
  have hscan := hrules.scan hwithin (.ofString text) { session := session }
  rw [outcome_proseBy, outcome_proseBy, hscan]
  rcases hresult : ((tagger settings nested).scan (.ofString text)).outcome { session := session } with
    ⟨failure | segments, reading⟩
  · rfl
  · obtain ⟨ribbon, -, hprojects⟩ := exists_projects_of_scan hresult
    simp only [Except.mapError, hprojects.prose]

omit h in
/-- The permitted levels of a document show only where they run out. -/
theorem relabels_nestedProse (settings : Settings) (permitted levels : Nat) (text : String) :
    Action.Relabels (Failure.withLevels permitted) (@nestedProse π _ settings levels text)
      (nestedProse { settings with maxNesting := permitted } levels text) := by
  induction levels generalizing text with
  | zero => exact Action.Relabels.throw (.tooDeep settings.maxNesting)
  | succ levels ih => exact relabels_proseBy ih permitted (fun _ => rfl) (fun _ _ => rfl) text

end Relabel

section Group
variable [Package π] {settings : Settings} {nested : Nested π} {source : Source} {initial : Reading π}
variable {before after inside : List Char} {depth : Nat}

/-- Behind an opening bracket at the start of a text all that is balanced so far belongs to the group. -/
theorem reaches_group (hmode : initial.mode = .text)
    (hsource : source.chars.toList = '{' :: (before ++ after))
    (hdepth : Bracket.curly.depthAfter 0 before = some depth) :
    (tagger settings nested).Reaches source initial (before.length + 1) [⟨.group, '{' :: before, none⟩]
      (initial.enter (.group 0 depth)) := by
  induction before using List.reverseRecOn generalizing after depth with
  | nil =>
      obtain rfl : 0 = depth := Option.some.inj hdepth
      have hsplit : source.chars.toList = [] ++ '{' :: after := hsource
      obtain ⟨hchar, hcount⟩ := Source.char_of_split hsplit
      rw [List.length_nil] at hchar hcount
      have hrule : textRule ⟨source, 0⟩ initial = Step.into (.group 0 0) [.tagHere .group] initial := by
        rw [textRule]
        simp [hchar, show isBlank '{' = false by decide]
      have hreach := Reaches.move (@Tagger.Reaches.start _ _ _ (tagger settings nested) source initial)
        hcount (.text hmode)
      rw [hrule, hchar] at hreach
      exact hreach
  | append_singleton before c ih =>
      rw [Bracket.depthAfter_append] at hdepth
      obtain ⟨middle, hmiddle, hc⟩ := Option.bind_eq_some_iff.mp hdepth
      rw [List.append_assoc] at hsource
      have hsplit : source.chars.toList = ('{' :: before) ++ c :: after := hsource
      obtain ⟨hchar, hcount⟩ := Source.char_of_split hsplit
      rw [List.length_cons] at hchar hcount
      have hreach := Reaches.move (ih hsource hmiddle) hcount (.inGroup rfl (hchar.symm ▸ hc))
      rw [hchar] at hreach
      rw [List.length_append, List.length_singleton]
      exact hreach

variable (hmode : initial.mode = .text) (hsource : source.chars.toList = '{' :: (inside ++ ['}']))
variable (hinside : Bracket.curly.IsBalanced inside)
include hmode hsource hinside

omit [Package π] hmode hinside in
/-- The last bracket cuts out all behind the first. -/
theorem textSince_last : Cursor.textSince ⟨source, inside.length + 1⟩ (0 + 1) = String.ofList inside := by
  have htake : source.chars.toList.take (inside.length + 1) = [] ++ '{' :: inside := by
    simp [hsource]
  exact @Cursor.textSince_of_take ⟨source, inside.length + 1⟩ _ _ _ htake

/-- The last bracket fails as the text inside the group does. -/
theorem fails_group {failure : Failure} {session : Session π}
    (hnested : (nested (String.ofList inside)).outcome initial.session = (.error failure, session)) :
    ∃ reading, reading.session = session ∧ (tagger settings nested).Fails source initial
      (.within (source.location (inside.length + 1)) failure) reading := by
  have hsplit : source.chars.toList = ('{' :: inside) ++ '}' :: [] := hsource
  obtain ⟨hchar, hcount⟩ := Source.char_of_split hsplit
  rw [List.length_cons] at hchar hcount
  have hreach : (tagger settings nested).Reaches source initial (inside.length + 1) _ _ :=
    reaches_group hmode hsource hinside
  rw [← textSince_last hsource] at hnested
  exact ⟨_, rfl, Reaches.stumble hreach hcount (.group rfl hchar hnested)⟩

/-- The text of the group is rendered as what the text inside it reads. -/
theorem completes_group {prose : String} {session : Session π}
    (hnested : (nested (String.ofList inside)).outcome initial.session = (.ok prose, session)) :
    ∃ ribbon reading, reading.session = session ∧ Ribbon.prose ribbon = prose ∧
      (tagger settings nested).Completes source initial ribbon reading := by
  have hsplit : source.chars.toList = ('{' :: inside) ++ '}' :: [] := hsource
  obtain ⟨hchar, hcount⟩ := Source.char_of_split hsplit
  rw [List.length_cons] at hchar hcount
  have hreach : (tagger settings nested).Reaches source initial (inside.length + 1) _ _ :=
    reaches_group hmode hsource hinside
  rw [← textSince_last hsource] at hnested
  have hclosed := Reaches.move hreach hcount (.endGroup rfl hchar hnested)
  have hlaid : Ribbon.lay [⟨Tag.group, '{' :: inside, none⟩] ([.append prose] ++ [.tagNext .text]) '}' =
      [{ tag := .text },
        (⟨.group, '{' :: inside ++ ['}'], none⟩ : Stretch Tag).amend (·.append prose)] := by
    rw [Ribbon.lay_tagNext fun tag => by simp]
    rfl
  have hlength : inside.length + 1 + 1 = source.length := by
    rw [Source.length, ← Array.length_toList, hsource]
    simp
  rw [hchar, Step.andThen, Step.into, Step.emit, hlaid, hlength] at hclosed
  obtain ⟨segments, hlist⟩ := Tagger.exists_segments hclosed.isSolid.settle
  have hwindow : (⟨⟨source, source.length - 1⟩, segments⟩ : Window Tag).toCursor =
      ⟨source, source.length - 1⟩ := rfl
  have hended := Tagger.Completes.ended hclosed (by omega) hwindow hlist rfl
  refine ⟨_, _, rfl, ?_, hended⟩
  rw [Ribbon.settle, if_pos rfl, Ribbon.close_amending (fun e he => absurd he List.not_mem_nil) (by simp)]
  change "" ++ Stretch.prose _ = prose
  rw [String.empty_append, prose_of_ne_text (by simp)]
  exact (Boundary.getD_append _ prose).trans String.empty_append

end Group

variable [Package π]

/-- As a nested text below one level more, a document comes to what it comes to alone. -/
theorem outcome_nestedProse_succ (settings : Settings) (levels : Nat) (text : String)
    (session : Session π) :
    (nestedProse { settings with maxNesting := levels + 1 } (levels + 1) text).outcome session =
      match ((documentTagger { settings with maxNesting := levels }).scan (.ofString text)).outcome
        { session := session } with
      | (.ok segments, reading) => (TagMap.prose ⟨.ofString text, segments⟩, reading.session)
      | (.error failure, reading) => (.error (failure.withLevels (levels + 1)), reading.session) := by
  have hrelabel := relabels_nestedProse { settings with maxNesting := levels } (levels + 1) (levels + 1)
    text session
  have halone : (nestedProse { settings with maxNesting := levels } (levels + 1) text).outcome session = _ :=
    outcome_proseBy text session
  have hdocument : documentTagger { settings with maxNesting := levels } =
      tagger { settings with maxNesting := levels }
        (@nestedProse π _ { settings with maxNesting := levels } levels) := rfl
  rw [hrelabel, halone, hdocument]
  rcases hscan : ((tagger { settings with maxNesting := levels }
    (nestedProse { settings with maxNesting := levels } levels)).scan (.ofString text)).outcome
      { session := session } with ⟨failure | segments, reading⟩
  · rfl
  · obtain ⟨ribbon, -, hprojects⟩ := exists_projects_of_scan hscan
    simp only [hprojects.prose, Except.mapError]

/-- A document in curly brackets, with one level more, is read as the document alone is, if its own curly
brackets balance: it shows the same prose, leaves the packages as that leaves them and gives the same
notices, one for each command put to the packages among them. It fails where that fails, at its last
bracket and with the number of its own levels. The packages may be any, so also ones that remember what
they were asked and in which order. -/
theorem read_group (settings : Settings) (levels : Nat) (packages : Chain π) {text : String}
    (h : Bracket.curly.IsBalanced text.toList) :
    let outer := (Document.withPackages { settings with maxNesting := levels + 1 } packages
      ("\x7b" ++ text ++ "\x7d")).read
    let inner := (Document.withPackages { settings with maxNesting := levels } packages text).read
    outer.1 = inner.1.mapError (fun failure =>
        .within ((Source.ofString ("\x7b" ++ text ++ "\x7d")).location (text.length + 1))
          (failure.withLevels (levels + 1))) ∧
      outer.2.map.bind TagMap.prose = inner.2.map.bind TagMap.prose ∧
      (inner.1 = .ok () → ∃ prose, inner.2.map.bind TagMap.prose = .ok prose) ∧
      outer.2.session = inner.2.session := by
  have hsource : (Source.ofString ("\x7b" ++ text ++ "\x7d")).chars.toList =
      '{' :: (text.toList ++ ['}']) := by
    simp
  have hnested := outcome_nestedProse_succ settings levels text { packages := packages }
  have hblind := @isBlind_tagger π _ { settings with maxNesting := levels + 1 }
    (nestedProse { settings with maxNesting := levels + 1 } (levels + 1))
  dsimp only
  rw [Document.read_withPackages, Document.read_withPackages]
  rcases hscan : ((documentTagger { settings with maxNesting := levels }).scan (.ofString text)).outcome
    { session := { packages := packages } } with ⟨failure | segments, reading⟩
  · simp only [hscan] at hnested
    rw [← String.ofList_toList (s := text)] at hnested
    obtain ⟨reading', hsession, hfails⟩ :=
      @fails_group π _ { settings with maxNesting := levels + 1 } _ _
        { session := { packages := packages } } _ rfl hsource h _ _ hnested
    have hread := hfails.outcome_scan hblind
    rw [String.length_toList] at hread
    rw [documentTagger]
    simp only [hread]
    exact ⟨rfl, rfl, (fun hok => by cases hok), hsession⟩
  · obtain ⟨ribbon, hcompletes, hprojects⟩ := exists_projects_of_scan hscan
    simp only [hscan, hprojects.prose] at hnested
    rw [← String.ofList_toList (s := text)] at hnested
    obtain ⟨ribbon', reading', hsession, hprose, hcompletes'⟩ :=
      @completes_group π _ { settings with maxNesting := levels + 1 } _ _
        { session := { packages := packages } } _ rfl hsource h _ _ hnested
    obtain ⟨segments', hread, hlist⟩ := hcompletes'.outcome_scan hblind
    have hprojects' : TagMap.Projects ⟨.ofString ("\x7b" ++ text ++ "\x7d"), segments'⟩ ribbon' :=
      TagMap.projects hlist hcompletes'.chars (hcompletes'.isVaried (isOrderly_tagger ..))
    have hshown := hprojects'.prose
    rw [hprose, trim_trim] at hshown
    rw [documentTagger]
    simp only [hread]
    exact ⟨rfl, hshown.trans hprojects.prose.symm, fun _ => ⟨_, hprojects.prose⟩, hsession⟩

/-- A command in the group has an argument that lies too deep in both documents. -/
theorem read_group_argument :
    Bracket.curly.IsBalanced "a % \x7b\n\\b[\x7bc\x7d]\x7d".toList ∧
      (Document.withPackages { maxNesting := 2 } (Chain.bundled {})
          ("\x7b" ++ "a % \x7b\n\\b[\x7bc\x7d]\x7d" ++ "\x7d")).read.1 =
        (Document.withPackages { maxNesting := 1 } (Chain.bundled {})
          "a % \x7b\n\\b[\x7bc\x7d]\x7d").read.1.mapError fun failure =>
            .within ((Source.ofString ("\x7b" ++ "a % \x7b\n\\b[\x7bc\x7d]\x7d" ++ "\x7d")).location
              ("a % \x7b\n\\b[\x7bc\x7d]\x7d".length + 1)) (failure.withLevels 2) := by
  have hbalanced : Bracket.curly.IsBalanced "a % \x7b\n\\b[\x7bc\x7d]\x7d".toList := by decide
  exact ⟨hbalanced, (read_group {} 1 (Chain.bundled {}) hbalanced).1⟩

end Latex

end TexProse
