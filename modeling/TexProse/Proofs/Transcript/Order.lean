import TexProse.Transcript
import Mathlib.Data.List.Forall2

/-!
# The order of places

Whatever is entered into a draft, the pieces of its transcript adjoin each other, so the map from the prose back
to the source never turns round: within a piece it goes on with the text or stands still at the start of the
markup, and no piece leads behind the start of the next one. Main statement: `origins_ascend`.
-/

namespace TexProse

namespace Piece
variable {piece : Piece} {offset later : Nat}

theorem start_le_origin (piece : Piece) (offset : Nat) : piece.start ≤ piece.origin offset := by
  rw [origin]
  split
  · exact Nat.le_add_right _ _
  · exact Nat.le_refl _

/-- A place in the prose of a piece comes from the piece if that is as long as what it holds. -/
theorem origin_le_stop (hstop : piece.stop = piece.start + piece.content.length)
    (h : offset < piece.prose.length) : piece.origin offset ≤ piece.stop := by
  rw [origin, hstop]
  rw [prose] at h
  split
  next hrole =>
    rw [hrole] at h
    exact Nat.add_le_add_left (Nat.le_of_lt h) _
  · exact Nat.le_add_right _ _

theorem origin_le_origin (piece : Piece) (h : offset ≤ later) : piece.origin offset ≤ piece.origin later := by
  rw [origin, origin]
  split
  · exact Nat.add_le_add_left h _
  · exact Nat.le_refl _

/-- Pieces that follow one another from a start up to a stop without gap or overlap, each as long as what it
holds. -/
inductive Adjoin : Nat → List Piece → Nat → Prop
  | nil {place : Nat} : Adjoin place [] place
  | cons {piece : Piece} {rest : List Piece} {stop : Nat}
      (hstop : piece.stop = piece.start + piece.content.length) (hrest : Adjoin piece.stop rest stop) :
      Adjoin piece.start (piece :: rest) stop

namespace Adjoin
variable {pieces : List Piece} {start stop : Nat}

theorem start_le_stop (h : Adjoin start pieces stop) : start ≤ stop := by
  induction h with
  | nil => exact Nat.le_refl _
  | cons hstop hrest ih => omega

theorem concat {middle : Nat} (h : Adjoin start pieces middle) (hstart : piece.start = middle)
    (hstop : piece.stop = piece.start + piece.content.length) : Adjoin start (pieces ++ [piece]) piece.stop := by
  induction h with
  | nil =>
      subst hstart
      exact .cons hstop .nil
  | cons hfirst hrest ih => exact .cons hfirst (ih hstart)

theorem getLast?_eq (h : Adjoin start pieces stop) : (pieces.getLast?.map (·.stop)).getD start = stop := by
  induction h with
  | nil => rfl
  | @cons piece rest stop hstop hrest ih =>
      rw [List.getLast?_cons, Option.map_some, Option.getD_some, ← ih]
      cases rest.getLast? <;> rfl

/-- Every place of the prose comes from between the ends. -/
theorem originIn_bounds (h : Adjoin start pieces stop) (offset : Nat) :
    start ≤ Transcript.originIn stop pieces offset ∧ Transcript.originIn stop pieces offset ≤ stop := by
  induction h generalizing offset with
  | nil => exact ⟨Nat.le_refl _, Nat.le_refl _⟩
  | @cons piece rest stop hstop hrest ih =>
      have hle := hrest.start_le_stop
      rw [Transcript.originIn]
      split
      next hinside =>
        have horigin := origin_le_stop hstop hinside
        exact ⟨piece.start_le_origin offset, Nat.le_trans horigin hle⟩
      next houtside =>
        obtain ⟨hstart, hbound⟩ := ih (offset - piece.prose.length)
        exact ⟨by omega, hbound⟩

theorem originIn_le_originIn (h : Adjoin start pieces stop) (hle : offset ≤ later) :
    Transcript.originIn stop pieces offset ≤ Transcript.originIn stop pieces later := by
  induction h generalizing offset later with
  | nil => exact Nat.le_refl _
  | @cons piece rest stop hstop hrest ih =>
      rw [Transcript.originIn, Transcript.originIn]
      split <;> split
      · exact piece.origin_le_origin hle
      next hinside houtside =>
        -- the later place has left the piece, and what follows starts where the piece stops
        calc piece.origin offset ≤ piece.stop := origin_le_stop hstop hinside
          _ ≤ Transcript.originIn stop rest (later - piece.prose.length) := (hrest.originIn_bounds _).1
      next houtside hinside => omega
      · exact ih (Nat.sub_le_sub_right hle _)

end Adjoin
end Piece

namespace Transcript

/-- The pieces of a transcript adjoin each other from the start of the source to its end. -/
def IsGapless (transcript : Transcript) : Prop := Piece.Adjoin 0 transcript.pieces transcript.sourceLength

theorem isGapless_of_adjoin {transcript : Transcript} {stop : Nat} (h : Piece.Adjoin 0 transcript.pieces stop) :
    transcript.IsGapless := by
  rw [IsGapless, sourceLength, h.getLast?_eq]
  exact h

theorem IsGapless.origin_le_origin {transcript : Transcript} {offset later : Nat} (h : transcript.IsGapless)
    (hle : offset ≤ later) : transcript.origin offset ≤ transcript.origin later :=
  h.originIn_le_originIn hle

theorem IsGapless.origin_le_sourceLength {transcript : Transcript} (h : transcript.IsGapless) (offset : Nat) :
    transcript.origin offset ≤ transcript.sourceLength :=
  (h.originIn_bounds offset).2

/-- What may be entered into a draft. -/
inductive Entry where
  | text (content : String)
  | markup (content : String)
  | markupAs (content shownAs : String)
  deriving DecidableEq, Repr

namespace Entry

def content : Entry → String
  | text content | markup content | markupAs content _ => content

def role : Entry → Role
  | text _ => .text
  | markup _ => .markup none
  | markupAs _ shownAs => .markup (some shownAs)

end Entry

namespace Draft

def enter (draft : Draft) : Entry → Draft
  | .text content => draft.text content
  | .markup content => draft.markup content
  | .markupAs content shownAs => draft.markupAs content shownAs

theorem enter_eq_add (draft : Draft) (entry : Entry) : draft.enter entry = draft.add entry.role entry.content := by
  cases entry <;> rfl

/-- Several transcripts made on one draft, one after the other, and the draft behind them. -/
def finishEach (draft : Draft) : List (List Entry) → List Transcript × Draft
  | [] => ([], draft)
  | entries :: rest =>
    let (transcript, cleared) := (entries.foldl enter draft).finish
    let (transcripts, last) := cleared.finishEach rest
    (transcript :: transcripts, last)

/-- A draft whose pieces cover as much of the source as it says. -/
def IsGapless (draft : Draft) : Prop := Piece.Adjoin 0 draft.pieces.toList draft.length

theorem IsGapless.enter {draft : Draft} (h : draft.IsGapless) (entry : Entry) : (draft.enter entry).IsGapless := by
  rw [enter_eq_add, IsGapless, add, Array.toList_push]
  exact h.concat rfl rfl

theorem IsGapless.enterAll {draft : Draft} (h : draft.IsGapless) (entries : List Entry) :
    (entries.foldl Draft.enter draft).IsGapless := by
  induction entries generalizing draft with
  | nil => exact h
  | cons entry rest ih => exact ih (h.enter entry)

/-- A draft keeps its pieces and gets one for each entry. -/
theorem map_pieces_enterAll (draft : Draft) (entries : List Entry) :
    (entries.foldl enter draft).pieces.toList.map (fun piece => (piece.content, piece.role)) =
      draft.pieces.toList.map (fun piece => (piece.content, piece.role)) ++
        entries.map fun entry => (entry.content, entry.role) := by
  induction entries generalizing draft with
  | nil => simp
  | cons entry rest ih => simp [ih, enter_eq_add, add]

/-- However many transcripts are made on one draft, and whatever is entered into it: each transcript has one
piece for each of its own entries, in their order; its pieces adjoin each other from 0 to the length of the
source, each as long as its text; and the places of the source ascend with those of the prose, up to that
length. Behind every transcript the draft is as empty as at the start. -/
theorem origins_ascend (texts : List (List Entry)) :
    List.Forall₂ (fun entries transcript =>
        transcript.pieces.map (fun piece => (piece.content, piece.role)) =
          entries.map (fun entry => (entry.content, entry.role)) ∧
        Piece.Adjoin 0 transcript.pieces transcript.sourceLength ∧
        ∀ offset later, offset ≤ later → transcript.origin offset ≤ transcript.origin later ∧
          transcript.origin later ≤ transcript.sourceLength)
      texts (finishEach {} texts).1 ∧
    (finishEach {} texts).2.pieces = #[] ∧ (finishEach {} texts).2.length = 0 := by
  induction texts with
  | nil => exact ⟨.nil, rfl, rfl⟩
  | cons entries rest ih =>
      obtain ⟨hrest, hcleared⟩ := ih
      have hempty : ({} : Draft).IsGapless := Piece.Adjoin.nil
      have hdraft := hempty.enterAll entries
      have hgapless : ((entries.foldl enter {}).finish.1).IsGapless := isGapless_of_adjoin hdraft
      refine ⟨.cons ⟨?_, hgapless, ?_⟩ hrest, hcleared⟩
      · exact map_pieces_enterAll {} entries
      · intro offset later hle
        exact ⟨hgapless.origin_le_origin hle, hgapless.origin_le_sourceLength later⟩

/-- A text, and after it one whose markup shows more than it holds. -/
example :
    (finishEach {} [[.text "Hi ", .markup "<b>", .markupAs "you" "YOU", .markup "</b>", .text "!"],
        [.markupAs "§" "Section", .text " 1"]]).1.map
      (fun transcript => (List.range 8).map transcript.origin) =
      [[0, 1, 2, 6, 6, 6, 13, 14], [0, 0, 0, 0, 0, 0, 0, 1]] := by
  decide +kernel

end Draft
end Transcript
end TexProse
