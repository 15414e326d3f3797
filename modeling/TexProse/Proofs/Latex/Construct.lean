import TexProse.Proofs.Latex.Course

/-!
# The course through a construct

A construct of a well-formed text takes a scan from one place to the next, and leaves it with what the
construct means said or still to be settled. Main statement: `Item.arrives`. Contents of groups and
arguments are texts of their own, which `Means` takes as read.
-/

namespace TexProse.Latex
variable {π : Type} [Package π] {settings : Settings} {nested : Nested π}
variable {source : Source} {session : Session π} {before after chars : List Char} {mode : Mode}
variable {speech : Speech π}

theorem ofChar_of_isPlain {c : Char} (h : isPlain c = true) (offset : Nat) :
    Mode.ofChar offset c = .text := by
  simp only [isPlain, Bool.and_eq_true, Bool.not_eq_true', decide_eq_true_eq] at h
  obtain ⟨⟨⟨⟨hblank, hcomment⟩, hname⟩, hquote⟩, hbracket⟩ := h
  have hgroup : c ≠ '{' := by
    rintro rfl
    cases hbracket
  rw [Mode.ofChar, if_neg (by simp [hblank]), if_neg hcomment, if_neg hname, if_neg hquote, if_neg hgroup]

/-- The scan stands between two constructs, and what is still open there settles to the speech. -/
def Arrives (settings : Settings) (nested : Nested π) (source : Source) (session : Session π)
    (before after : List Char) (mode : Mode) (speech : Speech π) : Prop :=
  ∃ unsettled, Stands settings nested source session before after mode unsettled ∧
    mode.settle ⟨source, before.length⟩ unsettled = speech

/-- In text nothing is left to settle. -/
theorem Stands.arrives (h : Stands settings nested source session before after .text speech) :
    Arrives settings nested source session before after .text speech :=
  ⟨speech, h, rfl⟩

namespace Arrives
variable {c : Char}

theorem split (h : Arrives settings nested source session before after mode speech) :
    source.chars.toList = before ++ after := by
  obtain ⟨unsettled, hstands, -⟩ := h
  exact hstands.1

/-- A character that opens a construct says nothing yet. -/
theorem opening {mode' : Mode}
    (h : Arrives settings nested source session before (c :: after) mode speech)
    (hadmits : mode.admits ⟨source, before.length⟩ = true) (hmode : Mode.ofChar before.length c = mode')
    (hopens : mode' ≠ .text) :
    Stands settings nested source session (before ++ [c]) after mode' speech := by
  obtain ⟨unsettled, hstands, rfl⟩ := h
  have hentered := hstands.enter hadmits
  rwa [Speech.hear, hmode, if_neg hopens] at hentered

/-- A character that opens nothing says itself. -/
theorem char (h : Arrives settings nested source session before (c :: after) mode speech)
    (hadmits : mode.admits ⟨source, before.length⟩ = true) (hmode : Mode.ofChar before.length c = .text) :
    Stands settings nested source session (before ++ [c]) after .text
      (speech.add (String.ofList [c])) := by
  obtain ⟨unsettled, hstands, rfl⟩ := h
  have hentered := hstands.enter hadmits
  rwa [Speech.hear, hmode, if_pos rfl] at hentered

theorem plain (h : Arrives settings nested source session before (c :: after) mode speech)
    (hadmits : mode.admits ⟨source, before.length⟩ = true) (hc : isPlain c = true) :
    Stands settings nested source session (before ++ [c]) after .text
      (speech.add (String.ofList [c])) :=
  h.char hadmits (ofChar_of_isPlain hc before.length)

/-- A run of text says itself. -/
theorem run (h : Arrives settings nested source session before (c :: (chars ++ after)) mode speech)
    (hadmits : mode.admits ⟨source, before.length⟩ = true) (hchars : ∀ c' ∈ c :: chars, isPlain c' = true) :
    Stands settings nested source session (before ++ c :: chars) after .text
      (speech.add (String.ofList (c :: chars))) := by
  have hplain := h.plain hadmits (hchars c List.mem_cons_self)
  induction chars generalizing before c mode speech with
  | nil => exact hplain
  | cons c' chars ih =>
      -- behind its first character a run stands in text
      have hrest : ∀ c ∈ c' :: chars, isPlain c = true := fun c hc => hchars c (List.mem_cons_of_mem _ hc)
      have hnext : Arrives settings nested source session (before ++ [c]) (c' :: (chars ++ after)) .text
          (speech.add (String.ofList [c])) := hplain.arrives
      have hrun := ih hnext rfl hrest (hnext.plain rfl (hrest c' List.mem_cons_self))
      have hadd : (speech.add (String.ofList [c])).add (String.ofList (c' :: chars)) =
          speech.add (String.ofList (c :: c' :: chars)) := by
        rw [Speech.add, Speech.add, Speech.add, String.append_assoc, ← String.ofList_append]
        rfl
      rw [List.append_cons, ← hadd]
      exact hrun

end Arrives

namespace Stands

/-- A run through which a construct only goes on. -/
theorem stay (h : Stands settings nested source session before (chars ++ after) mode speech)
    (hstay : ∀ read c after, c ∈ chars →
      Stands settings nested source session (before ++ read) (c :: after) mode speech →
      Stands settings nested source session (before ++ read ++ [c]) after mode speech) :
    Stands settings nested source session (before ++ chars) after mode speech := by
  induction chars generalizing before with
  | nil => rwa [List.append_nil]
  | cons c chars ih =>
      rw [List.append_cons]
      apply ih
      · have hfirst := hstay [] c (chars ++ after) List.mem_cons_self
        rw [List.append_nil] at hfirst
        exact hfirst h
      · -- seen from the first character, what the rest has read begins with it
        intro read c' after' hc' hread
        rw [← List.append_cons] at hread ⊢
        exact hstay (c :: read) c' after' (List.mem_cons_of_mem c hc') hread

/-- The inside of a bracket, whose depth the mode counts. -/
theorem inside {bracket : Bracket} {within : Nat → Mode} {depth depth' : Nat}
    (h : Stands settings nested source session before (chars ++ after) (within depth) speech)
    (hinside : ∀ {before after : List Char} {c : Char} {depth depth' : Nat},
      Stands settings nested source session before (c :: after) (within depth) speech →
      bracket.depthAfter depth [c] = some depth' →
      Stands settings nested source session (before ++ [c]) after (within depth') speech)
    (hdepth : bracket.depthAfter depth chars = some depth') :
    Stands settings nested source session (before ++ chars) after (within depth') speech := by
  induction chars generalizing before depth with
  | nil =>
      cases hdepth
      rwa [List.append_nil]
  | cons c chars ih =>
      rw [← List.singleton_append, Bracket.depthAfter_append] at hdepth
      obtain ⟨middle, hmiddle, hrest⟩ := Option.bind_eq_some_iff.mp hdepth
      rw [List.append_cons]
      exact ih (hinside h hmiddle) hrest

end Stands

/-- Whether a text may end in a mode between two of its constructs. -/
def Mode.rests : Mode → Bool
  | .text | .space _ | .comment | .name _ => true
  | .quote | .argument _ _ _ _ | .reopening _ _ | .group _ _ => false

/-- The mode behind a construct that began at `start`. -/
def Item.leaves (start : Nat) : Item → Mode
  | .blanks _ => .space start
  | .comment _ => .comment
  | .command _ .nil => .name start
  | _ => .text

section Neighbours

theorem ofArgument?_eq_none {c : Char} (h : isBracket c = false) : Bracket.ofArgument? c = none := by
  unfold Bracket.ofArgument?
  split
  · cases h
  · cases h
  · rfl

theorem isNameChar_opening {bracket : Bracket} (h : bracket ≠ .angle) :
    isNameChar bracket.opening = false := by
  cases bracket with
  | curly => decide
  | square => decide
  | angle => exact absurd rfl h

/-- The first character of a construct, which only a run of blanks begins with a blank and only a group
with a bracket. -/
theorem Item.exists_first {item : Item} (h : item.isWellFormed = true) :
    ∃ c rest, item.chars = c :: rest ∧ (isBlank c = true → ∃ run, item = .blanks run) ∧
      (isBracket c = true → ∃ body, item = .group body) := by
  cases item with
  | text run =>
      obtain ⟨hsome, hplain⟩ := Item.isWellFormed_text.mp h
      obtain ⟨c, rest, rfl⟩ := List.exists_cons_of_ne_nil hsome
      have hc := hplain c List.mem_cons_self
      refine ⟨c, rest, rfl, ?_, ?_⟩
      · intro hblank
        simp [isPlain, hblank] at hc
      · intro hbracket
        simp [isPlain, hbracket] at hc
  | blanks run =>
      obtain ⟨hsome, hblank⟩ := Item.isWellFormed_blanks.mp h
      obtain ⟨c, rest, rfl⟩ := List.exists_cons_of_ne_nil hsome
      have hc := isBracket_of_isBlank (hblank c List.mem_cons_self)
      refine ⟨c, rest, rfl, fun _ => ⟨_, rfl⟩, ?_⟩
      intro hbracket
      rw [hc] at hbracket
      cases hbracket
  | comment remark =>
      exact ⟨'%', remark, rfl, fun h => absurd h (by decide), fun h => absurd h (by decide)⟩
  | quote mark =>
      exact ⟨'"', [mark], rfl, fun h => absurd h (by decide), fun h => absurd h (by decide)⟩
  | escape c =>
      exact ⟨'\\', [c], rfl, fun h => absurd h (by decide), fun h => absurd h (by decide)⟩
  | group body =>
      exact ⟨'{', _, rfl, fun h => absurd h (by decide), fun _ => ⟨body, rfl⟩⟩
  | command name arguments =>
      exact ⟨'\\', _, rfl, fun h => absurd h (by decide), fun h => absurd h (by decide)⟩

/-- Behind a command stands no bracket of a further argument. -/
theorem Item.ofArgument?_behind {name : List Char} {arguments : Arguments} {following : Items}
    (hfollowing : following.isWellFormed = true)
    (h : (Item.command name arguments).precedes following = true) :
    following.chars.head?.bind Bracket.ofArgument? = none := by
  cases following with
  | nil => rfl
  | cons next tail =>
      obtain ⟨c, rest, hchars, -, hbracket⟩ :=
        Item.exists_first (Items.isWellFormed_cons.mp hfollowing).1
      have hc : isBracket c = false := by
        -- only a group begins with a bracket, and no command precedes one
        apply Bool.eq_false_iff.mpr
        intro hc
        obtain ⟨body, rfl⟩ := hbracket hc
        cases arguments <;> cases h
      rw [Items.chars, hchars, List.cons_append, List.head?_cons, Option.bind_some,
        ofArgument?_eq_none hc]

theorem Item.rests_leaves (item : Item) (start : Nat) : (item.leaves start).rests = true := by
  cases item with
  | command name arguments => cases arguments <;> rfl
  | _ => rfl

/-- The first character of what follows a construct is read as text. -/
theorem Item.admits_leaves {item next : Item} {following tail : Items} {start : Nat}
    (hitem : item.isWellFormed = true) (hfollowing : following.isWellFormed = true)
    (h : item.precedes following = true) (hnext : following = .cons next tail)
    (hsource : source.chars.toList = before ++ following.chars)
    (hoffset : before.length = start + item.chars.length) :
    (item.leaves start).admits ⟨source, before.length⟩ = true := by
  subst hnext
  obtain ⟨c, rest, hchars, hblank, -⟩ := Item.exists_first (Items.isWellFormed_cons.mp hfollowing).1
  rw [Items.chars, hchars] at hsource
  obtain ⟨hchar, -⟩ := Source.char_of_split hsource
  cases item with
  | text run => rfl
  | quote mark => rfl
  | escape c => rfl
  | group body => rfl
  | blanks run =>
      simp only [Item.leaves, Mode.admits, hchar, Bool.not_eq_true']
      apply Bool.eq_false_iff.mpr
      intro hc
      obtain ⟨other, rfl⟩ := hblank hc
      cases h
  | comment remark =>
      cases next with
      | blanks run =>
          rw [Item.precedes, show run = c :: rest from hchars, List.head?_cons, Option.any_some] at h
          rw [Item.leaves, Mode.admits, hchar]
          exact h
      | _ => cases h
  | command name arguments =>
      cases arguments with
      | cons bracket body tail => rfl
      | nil =>
          have hbehind := Item.ofArgument?_behind hfollowing h
          rw [Items.chars, hchars, List.cons_append, List.head?_cons, Option.bind_some] at hbehind
          have hname : isNameChar c = false := by
            cases next with
            | group body => cases h
            | _ =>
                simpa only [Item.precedes, hchars, List.head?_cons, Option.any_some,
                  Bool.not_eq_true'] using h
          have hlong : start + 1 < before.length := by
            cases name with
            | nil => cases hitem
            | cons first rest =>
                simp only [Item.chars, List.length_cons, List.length_append] at hoffset
                omega
          simp [Item.leaves, Mode.admits, hchar, hbehind, hname, hlong]

end Neighbours

/-- Well-formed texts that are nested less deep than `levels` are read for what they mean. -/
def Means (settings : Settings) (nested : Nested π) (levels : Nat) : Prop :=
  ∀ (body : Items) (packages : Chain π), body.isWellFormed = true → body.depth < levels →
    Yields nested (String.ofList body.chars) packages
      (trim (body.eval settings { packages := packages }).prose)
      (body.eval settings { packages := packages }).packages

section Passage
variable {body : Items}

/-- From the backslash of a command to the end of its name. -/
theorem Arrives.throughName {name : List Char}
    (h : Arrives settings nested source session before ('\\' :: (name ++ after)) mode speech)
    (hadmits : mode.admits ⟨source, before.length⟩ = true) (hname : isName name = true) :
    Stands settings nested source session (before ++ '\\' :: name) after (.name before.length) speech := by
  cases name with
  | nil => cases hname
  | cons first rest =>
      have hopened := h.opening hadmits (show _ = Mode.name before.length from rfl) (by simp)
      simp only [isName, Bool.and_eq_true, List.all_eq_true] at hname
      have hfirst := hopened.name (by simpa using hname.1)
      have hall := hfirst.stay fun read c after hc hread => by
        apply hread.name
        rw [if_neg (by simp only [List.length_append, List.length_singleton]; omega)]
        exact hname.2 c hc
      simpa using hall

/-- A command of one character is asked as soon as it is read. -/
theorem Arrives.throughEscape {c : Char}
    (h : Arrives settings nested source session before ('\\' :: c :: after) mode speech)
    (hadmits : mode.admits ⟨source, before.length⟩ = true) (hc : isLetter c = false) :
    Stands settings nested source session (before ++ ['\\', c]) after .text
      (speech.ask { name := String.ofList ['\\', c] }) := by
  have hopened := h.opening hadmits (show _ = Mode.name before.length from rfl) (by simp)
  have hescape := hopened.escape (by simp) hc
  rw [← List.append_cons, List.length_append, List.length_singleton] at hescape
  have hslice := Source.slice_of_split hescape.1 List.length_append
  rwa [show before.length + 1 + 1 = (before ++ ['\\', c]).length by simp, hslice] at hescape

/-- From the backslash of a command to the start of its first argument. -/
theorem Arrives.throughCommand {name : List Char} {bracket : Bracket}
    (h : Arrives settings nested source session before ('\\' :: (name ++ bracket.opening :: after)) mode
      speech)
    (hadmits : mode.admits ⟨source, before.length⟩ = true) (hname : isName name = true)
    (hbracket : bracket ≠ .angle) :
    Stands settings nested source session (before ++ '\\' :: name ++ [bracket.opening]) after
      (.argument { name := String.ofList ('\\' :: name) } bracket
        (before ++ '\\' :: name ++ [bracket.opening]).length 0) speech := by
  have hsome : name ≠ [] := by
    rintro rfl
    cases hname
  have hnamed := h.throughName hadmits hname
  have hopened := hnamed.openArgument (by simp [hsome]) (isNameChar_opening hbracket)
    (Bracket.ofArgument?_opening hbracket)
  rwa [Source.slice_of_split hnamed.1 List.length_append] at hopened

/-- From the bracket that opens a group to the one that closes it. -/
theorem Arrives.throughGroup
    (h : Arrives settings nested source session before ('{' :: (body.chars ++ '}' :: after)) mode speech)
    (hadmits : mode.admits ⟨source, before.length⟩ = true) (hbody : body.isWellFormed = true) :
    Stands settings nested source session (before ++ ['{'] ++ body.chars) ('}' :: after)
        (.group before.length 0) speech ∧
      source.slice (before.length + 1) (before ++ ['{'] ++ body.chars).length = String.ofList body.chars := by
  have hopened := h.opening hadmits (show _ = Mode.group before.length 0 from rfl) (by simp)
  have hdepth := Items.depthAfter_chars (show Bracket.curly ≠ .angle by decide) body hbody 0
  have hslice := Source.slice_of_split (hopened.1.trans (List.append_assoc _ _ _).symm) List.length_append
  rw [List.length_append, List.length_singleton] at hslice
  constructor
  · exact hopened.inside (fun hstands hdepth => hstands.inGroup hdepth) hdepth
  · simpa using hslice

/-- From the start of an argument to the bracket that closes it. -/
theorem Stands.throughArgument {command : Command} {bracket : Bracket}
    (h : Stands settings nested source session before (body.chars ++ bracket.closing :: after)
      (.argument command bracket before.length 0) speech)
    (hbracket : bracket ≠ .angle) (hbody : body.isWellFormed = true) :
    Stands settings nested source session (before ++ body.chars) (bracket.closing :: after)
        (.argument command bracket before.length 0) speech ∧
      source.slice before.length (before ++ body.chars).length = String.ofList body.chars := by
  have hdepth := Items.depthAfter_chars hbracket body hbody 0
  constructor
  · exact h.inside (fun hstands hdepth => hstands.inArgument hdepth) hdepth
  · exact Source.slice_of_split (h.1.trans (List.append_assoc _ _ _).symm) List.length_append

end Passage

section Meaning
variable {levels : Nat} (hmeans : Means settings nested levels)
include hmeans

/-- From the start of an argument to the start of the next. -/
theorem Stands.throughArguments {command : Command} {bracket bracket' : Bracket} {body body' : Items}
    {tail : Arguments} (hbracket : bracket ≠ .angle) (hbracket' : bracket' ≠ .angle)
    (hbody : body.isWellFormed = true) (hdepth : body.depth < levels)
    (h : Stands settings nested source session before
      (body.chars ++ bracket.closing :: ((Arguments.cons bracket' body' tail).chars ++ after))
      (.argument command bracket before.length 0) speech) :
    Stands settings nested source session
      (before ++ body.chars ++ [bracket.closing] ++ [bracket'.opening])
      (body'.chars ++ bracket'.closing :: (tail.chars ++ after))
      (.argument
        { command with
          arguments := command.arguments ++
            [trim (body.eval settings { packages := speech.packages }).prose] }
        bracket' (before ++ body.chars ++ [bracket.closing] ++ [bracket'.opening]).length 0)
      { speech with packages := (body.eval settings { packages := speech.packages }).packages } := by
  obtain ⟨hinside, hslice⟩ := h.throughArgument hbracket hbody
  have hyields := hmeans body speech.packages hbody hdepth
  rw [← hslice] at hyields
  rw [Arguments.chars, List.cons_append, List.append_assoc, List.cons_append] at hinside
  exact (hinside.nextArgument rfl hyields (Bracket.ofArgument?_opening hbracket')).reopen

/-- Arguments take a scan from the start of the first to the character behind the last. -/
theorem Arguments.arrives {before : List Char} {speech : Speech π} {command : Command}
    {bracket : Bracket} {body : Items} (tail : Arguments)
    (hwell : (Arguments.cons bracket body tail).isWellFormed = true)
    (hdepth : (Arguments.cons bracket body tail).depth ≤ levels)
    (hbehind : after.head?.bind Bracket.ofArgument? = none)
    (h : Stands settings nested source session before
      (body.chars ++ bracket.closing :: (tail.chars ++ after))
      (.argument command bracket before.length 0) speech) :
    Stands settings nested source session (before ++ (body.chars ++ bracket.closing :: tail.chars)) after
      .text ({ speech with
        packages := ((Arguments.cons bracket body tail).eval settings speech.packages).2 }.ask
          { command with
            arguments := command.arguments ++
              ((Arguments.cons bracket body tail).eval settings speech.packages).1 }) := by
  obtain ⟨hbracket, hbody, htail⟩ := Arguments.isWellFormed_cons.mp hwell
  simp only [Arguments.depth, Nat.max_le] at hdepth
  cases tail with
  | nil =>
      obtain ⟨hinside, hslice⟩ := h.throughArgument hbracket hbody
      have hyields := hmeans body speech.packages hbody (Nat.lt_of_succ_le hdepth.1)
      rw [← hslice] at hyields
      have hlast := hinside.lastArgument rfl hyields hbehind
      simpa [Arguments.eval, Arguments.chars] using hlast
  | cons bracket' body' tail =>
      -- the command holds the values so far, so the rest is the same statement about a longer one
      have hbracket' := (Arguments.isWellFormed_cons.mp htail).1
      have hnext := h.throughArguments hmeans hbracket hbracket' hbody (Nat.lt_of_succ_le hdepth.1)
      have hrest := Arguments.arrives tail htail hdepth.2 hbehind hnext
      simpa [Arguments.eval, Arguments.chars] using hrest

/-- A construct is read for what it means. -/
theorem Item.arrives {item : Item} {following : Items} (hwell : item.isWellFormed = true)
    (hfollowing : following.isWellFormed = true) (hprecedes : item.precedes following = true)
    (hdepth : item.depth ≤ levels) (hadmits : mode.admits ⟨source, before.length⟩ = true)
    (h : Arrives settings nested source session before (item.chars ++ following.chars) mode speech) :
    Arrives settings nested source session (before ++ item.chars) following.chars
      (item.leaves before.length) (item.eval settings speech) := by
  cases item with
  | text run =>
      obtain ⟨hsome, hplain⟩ := Item.isWellFormed_text.mp hwell
      obtain ⟨c, rest, rfl⟩ := List.exists_cons_of_ne_nil hsome
      exact ⟨_, h.run hadmits hplain, rfl⟩
  | blanks run =>
      obtain ⟨hsome, hblank⟩ := Item.isWellFormed_blanks.mp hwell
      obtain ⟨c, rest, rfl⟩ := List.exists_cons_of_ne_nil hsome
      have hopened := h.opening hadmits (if_pos (hblank c List.mem_cons_self)) (by simp)
      have hrun := hopened.stay fun read c' after hc' hread =>
        hread.blank (hblank c' (List.mem_cons_of_mem c hc'))
      rw [← List.append_cons] at hrun
      refine ⟨speech, hrun, ?_⟩
      have hslice := Source.slice_of_split hrun.1 List.length_append
      exact congrArg (fun text => speech.blank text) hslice
  | comment remark =>
      have hopened := h.opening hadmits (show _ = Mode.comment from rfl) (by simp)
      have hrun := hopened.stay fun read c after hc hread =>
        hread.remark (Item.isWellFormed_comment.mp hwell c hc).1
      rw [← List.append_cons] at hrun
      exact ⟨_, hrun, rfl⟩
  | quote mark =>
      have hopened := h.opening hadmits (show _ = Mode.quote from rfl) (by simp)
      have hmark : pairedQuote? settings mark = some ((pairedQuote? settings mark).getD "") := by
        simp only [Item.isWellFormed, Bool.or_eq_true, decide_eq_true_eq] at hwell
        rcases hwell with rfl | rfl <;> rfl
      have hpair := hopened.pair hmark
      rw [← List.append_cons] at hpair
      exact ⟨_, hpair, rfl⟩
  | escape c =>
      exact ⟨_, h.throughEscape hadmits (Item.isWellFormed_escape.mp hwell).1, rfl⟩
  | group body =>
      rw [Item.chars, List.cons_append, List.append_assoc] at h
      obtain ⟨hinside, hslice⟩ := h.throughGroup hadmits hwell
      have hyields := hmeans body speech.packages hwell (Nat.lt_of_succ_le hdepth)
      rw [← hslice] at hyields
      have hclosed := hinside.closeGroup rfl hyields
      refine ⟨_, ?_, rfl⟩
      simpa [Item.leaves, Item.chars, Item.eval] using hclosed
  | command name arguments =>
      obtain ⟨hletters, harguments⟩ := Item.isWellFormed_command.mp hwell
      rw [Item.chars, List.cons_append, List.append_assoc] at h
      cases arguments with
      | nil =>
          have hnamed := h.throughName hadmits hletters
          have hname := Source.slice_of_split hnamed.1 List.length_append
          refine ⟨speech, ?_, ?_⟩
          · simpa [Item.chars, Arguments.chars, Item.leaves] using hnamed
          · rw [Item.leaves, Mode.settle, Cursor.textSince, Item.chars, Arguments.chars, List.append_nil,
              hname]
            rfl
      | cons bracket body tail =>
          have hbracket := (Arguments.isWellFormed_cons.mp harguments).1
          rw [Arguments.chars, List.cons_append, List.append_assoc, List.cons_append] at h
          have hopened := h.throughCommand hadmits hletters hbracket
          have hclosed := Arguments.arrives hmeans tail harguments hdepth
            (Item.ofArgument?_behind hfollowing hprecedes) hopened
          rw [List.nil_append, List.append_assoc, List.append_assoc] at hclosed
          exact ⟨_, hclosed, rfl⟩

/-- The constructs of a text are read one after the other for what they mean. -/
theorem Items.arrives {before : List Char} {mode : Mode} {speech : Speech π} (items : Items)
    (hwell : items.isWellFormed = true) (hdepth : items.depth ≤ levels) (hrests : mode.rests = true)
    (hadmits : ∀ head tail, items = .cons head tail → mode.admits ⟨source, before.length⟩ = true)
    (h : Arrives settings nested source session before items.chars mode speech) :
    ∃ mode', mode'.rests = true ∧
      Arrives settings nested source session (before ++ items.chars) [] mode'
        (items.eval settings speech) := by
  cases items with
  | nil => exact ⟨mode, hrests, by simpa [Items.chars, Items.eval] using h⟩
  | cons head tail =>
      obtain ⟨hhead, hprecedes, htail⟩ := Items.isWellFormed_cons.mp hwell
      simp only [Items.depth, Nat.max_le] at hdepth
      have harrives := Item.arrives hmeans hhead htail hprecedes hdepth.1 (hadmits head tail rfl) h
      rw [Items.chars, ← List.append_assoc]
      apply Items.arrives tail htail hdepth.2 (head.rests_leaves _) _ harrives
      intro next tail hnext
      exact Item.admits_leaves hhead htail hprecedes hnext harrives.split List.length_append

end Meaning

end TexProse.Latex
