import MemShell.History.Basic
import Mathlib.Data.List.Destutter
import Mathlib.Data.List.DropRight

/-!
# Recalling lines

A history keeps the newest of the lines that are worth keeping, and its reading position moves over
them without leaving them. Main statement: after any calls the lines of a history are the first of
those that were entered since the last clearing and kept, its position is one of a line or in front
of the newest one, and going to older and newer lines gives the lines at the positions reached by
steps that end at the oldest line and in front of the newest one.
-/

namespace MemShell

section Destutter

variable {α : Type} {R : α → α → Prop} [DecidableRel R]

/-- One more item behind a first one is kept if it is related to the last item that is kept. -/
theorem destutter'_concat (first : α) (items : List α) (item : α) :
    (items ++ [item]).destutter' R first =
      if ∀ last ∈ (items.destutter' R first).getLast?, R last item then
        items.destutter' R first ++ [item]
      else items.destutter' R first := by
  induction items generalizing first with
  | nil => simp [List.destutter'_singleton]
  | cons next items ih =>
    rw [List.cons_append]
    by_cases h : R first next
    · obtain ⟨last, hlast⟩ := Option.isSome_iff_exists.1
        (List.getLast?_isSome.2 (List.destutter'_ne_nil items R))
      have hbehind : (first :: items.destutter' R next).getLast? = some last := by
        rw [List.getLast?_cons, hlast, Option.getD_some]
      rw [List.destutter'_cons_pos _ h, List.destutter'_cons_pos _ h, ih, hlast, hbehind]
      split <;> rfl
    · rw [List.destutter'_cons_neg _ h, List.destutter'_cons_neg _ h, ih]

/-- One more item is kept if it is the first one or related to the last one that is kept. -/
theorem destutter_concat (items : List α) (item : α) :
    (items ++ [item]).destutter R =
      if ∀ last ∈ (items.destutter R).getLast?, R last item then items.destutter R ++ [item]
      else items.destutter R := by
  cases items with
  | nil => simp
  | cons first items => exact destutter'_concat first items item

end Destutter

/-- A call on a history. -/
inductive HistoryCall
  /-- Enters a line. -/
  | add (line : Text)
  /-- Reads the line at a position. -/
  | get (index : Int)
  /-- Goes to the next newer line. -/
  | next
  /-- Goes to the next older line. -/
  | previous
  /-- Drops all lines. -/
  | clear
  /-- Goes in front of the newest line. -/
  | resetIndex
  deriving DecidableEq

namespace HistoryCall

/-- The line that a call enters. -/
def line? : HistoryCall → Option Text
  | add line => some line
  | get _ | next | previous | clear | resetIndex => none

/-- The lines that have been entered since the last clearing. -/
def entered (calls : List HistoryCall) : List Text :=
  (calls.rtakeWhile (· ≠ clear)).filterMap line?

/-- After clearing nothing has been entered. -/
theorem entered_concat_clear (calls : List HistoryCall) : entered (calls ++ [clear]) = [] := by
  simp [entered]

/-- Any other call enters its line if it has one. -/
theorem entered_concat {call : HistoryCall} (h : call ≠ clear) (calls : List HistoryCall) :
    entered (calls ++ [call]) = entered calls ++ call.line?.toList := by
  rw [entered, List.rtakeWhile_concat_pos _ _ _ (by simpa using h), List.filterMap_append]
  cases hline : call.line? <;> simp [entered, hline]

end HistoryCall

/-- A way to move over the lines of a history. -/
inductive Move
  /-- To the next older line. -/
  | older
  /-- To the next newer line. -/
  | newer

namespace Move

/-- The position that a move leads to among a number of lines: one step away, but not in front of
the position before the newest line and not behind the oldest line. -/
def target (count : Nat) (position : Int) (move : Move) : Int :=
  let step := match move with
    | older => position + 1
    | newer => position - 1
  max (-1) (min step (count - 1))

/-- The positions that moves lead to one after the other. -/
def positions (count : Nat) (position : Int) : List Move → List Int
  | [] => []
  | move :: moves =>
    move.target count position :: positions count (move.target count position) moves

end Move

namespace History

open HistoryCall

/-! ## Lines -/

/-- The lines that are kept of those that are entered: blank ones are left out, and those that are
equal to the last line kept but for the blanks around them. -/
def kept (lines : List Text) : List Text :=
  (lines.filter fun line => Text.strip line ≠ []).destutter
    fun last line => Text.strip line ≠ Text.strip last

/-- One more line is kept if it is not blank and differs from the last line kept. -/
theorem kept_concat (lines : List Text) (line : Text) :
    kept (lines ++ [line]) =
      if Text.strip line ≠ [] ∧
          ∀ last ∈ (kept lines).getLast?, Text.strip line ≠ Text.strip last then
        kept lines ++ [line]
      else kept lines := by
  by_cases h : Text.strip line = []
  · simp [kept, h]
  · have hfilter : (lines ++ [line]).filter (fun line => Text.strip line ≠ []) =
        lines.filter (fun line => Text.strip line ≠ []) ++ [line] := by
      simp [h]
    rw [kept, hfilter, destutter_concat, ← kept]
    simp [h]

/-- The first lines up to a number; all of them without one. -/
def firstOf (bound : Option Nat) (lines : List Text) : List Text :=
  match bound with
  | none => lines
  | some size => lines.take size

/-- A history keeps the first lines up to its size. -/
theorem trim_eq (bound : Option Nat) (lines : List Text) :
    trim (bound.map Int.ofNat) lines = firstOf bound lines := by
  cases bound <;> rfl

/-- A line in front of the first ones comes in front of all of them. -/
theorem firstOf_cons_firstOf (bound : Option Nat) (line : Text) (lines : List Text) :
    firstOf bound (line :: firstOf bound lines) = firstOf bound (line :: lines) := by
  cases bound with
  | none => rfl
  | some size =>
    cases size with
    | zero => rfl
    | succ size => simp [firstOf, List.take_take]

/-- The newest of the first lines is the newest of all, unless the number is zero. -/
theorem head?_firstOf {bound : Option Nat} (h : bound ≠ some 0) (lines : List Text) :
    (firstOf bound lines).head? = lines.head? := by
  cases bound with
  | none => rfl
  | some size =>
    have hsize : size ≠ 0 := fun hzero => h (congrArg some hzero)
    rw [firstOf, List.head?_take, if_neg hsize]

/-! ## Runs -/

/-- The history after a call. -/
def after (history : History) : HistoryCall → History
  | .add line => history.add line
  | .get _ => history
  | .next => history.next.2
  | .previous => history.previous.2
  | .clear => history.clear
  | .resetIndex => history.resetIndex

/-- The history after several calls. -/
def run (history : History) (calls : List HistoryCall) : History := calls.foldl after history

/-- A history keeps the first of the lines that have been entered and kept, the newest first, and
its position is one of a line or in front of the newest one. -/
structure Holds (history : History) (bound : Option Nat) (lines : List Text) : Prop where
  /-- The size does not change. -/
  maxSize : history.maxSize = bound.map Int.ofNat
  /-- The lines are the first of those that have been kept. -/
  entries : history.entries = firstOf bound (kept lines).reverse
  /-- The position is not in front of the one before the newest line. -/
  ge : -1 ≤ history.index
  /-- The position is not behind the oldest line. -/
  lt : history.index < history.entries.length

variable {history : History} {bound : Option Nat} {lines : List Text}

/-- A history that is made without lines holds nothing. -/
theorem holds_create (bound : Option Nat) : (create [] (bound.map Int.ofNat)).Holds bound [] := by
  have hentries : (create [] (bound.map Int.ofNat)).entries = [] := by
    rw [create, trim_eq]
    cases bound <;> simp [firstOf]
  refine ⟨rfl, ?_, Int.le_refl _, ?_⟩
  · rw [hentries]
    cases bound <;> simp [firstOf, kept]
  · rw [hentries]
    exact Int.negSucc_lt_zero 0

/-- The position of a history that holds lines can go in front of the newest one. -/
theorem Holds.resetIndex (h : history.Holds bound lines) :
    history.resetIndex.Holds bound lines where
  maxSize := h.maxSize
  entries := h.entries
  ge := Int.le_refl _
  lt := by
    simp only [History.resetIndex]
    omega

/-- A line is new if it is not blank and differs from the newest line. -/
theorem isNew_iff (history : History) (line : Text) :
    history.isNew line = true ↔ Text.strip line ≠ [] ∧
      ∀ newest ∈ history.entries.head?, Text.strip line ≠ Text.strip newest := by
  rw [isNew, Bool.and_eq_true, Bool.not_eq_true']
  cases history.entries with
  | nil => simp
  | cons newest entries => simp

/-- A line that is entered is kept if it is worth it, and is dropped at once if the size is zero. -/
theorem Holds.add (h : history.Holds bound lines) (line : Text) :
    (history.add line).Holds bound (lines ++ [line]) := by
  have hentries : (if history.isNew line = true then
      trim history.maxSize (line :: history.entries) else history.entries) =
        firstOf bound (kept (lines ++ [line])).reverse := by
    rw [h.maxSize, trim_eq, kept_concat]
    by_cases hzero : bound = some 0
    · -- Nothing is kept, so every line that is not blank is new.
      rw [h.entries, hzero]
      simp [firstOf]
    · have hnew := history.isNew_iff line
      rw [h.entries, head?_firstOf hzero, List.head?_reverse] at hnew
      rw [h.entries, firstOf_cons_firstOf]
      by_cases hworth : Text.strip line ≠ [] ∧
          ∀ last ∈ (kept lines).getLast?, Text.strip line ≠ Text.strip last
      · rw [if_pos (hnew.2 hworth), if_pos hworth, List.reverse_concat]
      · rw [if_neg (fun htrue => hworth (hnew.1 htrue)), if_neg hworth]
  have hadd : history.add line =
      ⟨firstOf bound (kept (lines ++ [line])).reverse, -1, history.maxSize⟩ := by
    rw [← hentries, History.add]
    split <;> rfl
  rw [hadd]
  refine ⟨h.maxSize, rfl, Int.le_refl _, ?_⟩
  dsimp only
  omega

/-- After clearing a history holds nothing. -/
theorem Holds.clear (h : history.Holds bound lines) : history.clear.Holds bound [] := by
  refine ⟨h.maxSize, ?_, Int.le_refl _, ?_⟩
  · cases bound <;> simp [History.clear, History.resetIndex, kept, firstOf]
  · simp [History.clear, History.resetIndex]

/-- A history goes on holding its lines when its position moves to one of them. -/
theorem Holds.moveTo (h : history.Holds bound lines) {index : Int} (hge : -1 ≤ index)
    (hlt : index < history.entries.length) : (history.moveTo index).2.Holds bound lines :=
  ⟨h.maxSize, h.entries, hge, hlt⟩

/-- The history after a move, and the line that it gives. -/
def go (history : History) : Move → Except HistoryError Text × History
  | .older => history.previous
  | .newer => history.next

/-- A move leads to its target. -/
theorem Holds.go_eq (h : history.Holds bound lines) (move : Move) :
    history.go move = history.moveTo (move.target history.entries.length history.index) := by
  have hge := h.ge
  have hlt := h.lt
  cases move with
  | older =>
    refine congrArg history.moveTo ?_
    simp only [Move.target]
    omega
  | newer =>
    refine congrArg history.moveTo ?_
    simp only [Move.target]
    omega

/-- A history goes on holding its lines when its position moves over them. -/
theorem Holds.go (h : history.Holds bound lines) (move : Move) :
    (history.go move).2.Holds bound lines := by
  have hge := h.ge
  have hlt := h.lt
  rw [h.go_eq]
  apply h.moveTo
  · exact Int.le_max_left _ _
  · cases move <;> simp only [Move.target] <;> omega

/-- A call clears a history, or enters its line if it has one. -/
theorem Holds.after {calls : List HistoryCall} (h : history.Holds bound (entered calls))
    (call : HistoryCall) : (history.after call).Holds bound (entered (calls ++ [call])) := by
  by_cases hclear : call = .clear
  · rw [hclear, entered_concat_clear]
    exact h.clear
  · rw [entered_concat hclear]
    cases call with
    | add line => exact h.add line
    | get index => simpa [line?, History.after] using h
    | next => simpa [line?, History.after, History.go] using h.go .newer
    | previous => simpa [line?, History.after, History.go] using h.go .older
    | clear => exact absurd rfl hclear
    | resetIndex => simpa [line?, History.after] using h.resetIndex

/-- After any calls a history holds what has been entered since the last clearing. -/
theorem holds_run (bound : Option Nat) (calls : List HistoryCall) :
    ((create [] (bound.map Int.ofNat)).run calls).Holds bound (entered calls) := by
  induction calls using List.reverseRecOn with
  | nil => exact holds_create bound
  | append_singleton calls call ih =>
    rw [run, List.foldl_concat, ← run]
    exact ih.after call

/-! ## Moves -/

/-- The line at a position; in front of the newest line there is an empty one. -/
def lineAt (lines : List Text) (position : Int) : Text :=
  if position = -1 then [] else lines.getD position.toNat []

/-- Reading at a position that is one of a line or in front of the newest one does not fail. -/
theorem get_eq {index : Int} (hge : -1 ≤ index) (hlt : index < history.entries.length) :
    history.get index = .ok (lineAt history.entries index) := by
  match index with
  | .ofNat n =>
    have hn : n < history.entries.length := Int.ofNat_lt.1 hlt
    have hne : Int.ofNat n ≠ -1 := nofun
    rw [get, lineAt, if_neg hne, List.getElem?_eq_getElem hn]
    simp [hn]
  | .negSucc 0 => rfl
  | .negSucc (n + 1) => omega

/-- What moves give one after the other, and the history after them. -/
def navigate (history : History) : List Move → List (Except HistoryError Text) × History
  | [] => ([], history)
  | move :: moves =>
    let (given, moved) := history.go move
    let (others, last) := navigate moved moves
    (given :: others, last)

/-- A move gives the line at its target. -/
theorem Holds.go_given (h : history.Holds bound lines) (move : Move) :
    (history.go move).1 =
      .ok (lineAt history.entries (move.target history.entries.length history.index)) := by
  have hgo := h.go move
  rw [h.go_eq] at hgo ⊢
  exact get_eq hgo.ge hgo.lt

/-- Moves give the lines at the positions that they lead to. -/
theorem Holds.navigate_eq (h : history.Holds bound lines) (moves : List Move) :
    (history.navigate moves).1 =
      (Move.positions history.entries.length history.index moves).map fun position =>
        .ok (lineAt history.entries position) := by
  induction moves generalizing history with
  | nil => rfl
  | cons move moves ih =>
    have hentries : (history.go move).2.entries = history.entries := by rw [h.go_eq]; rfl
    have hindex : (history.go move).2.index =
        move.target history.entries.length history.index := by rw [h.go_eq]; rfl
    have hrest := ih (h.go move)
    rw [hentries, hindex] at hrest
    rw [navigate, Move.positions, List.map_cons, ← h.go_given, ← hrest]

/-- After any calls on a history that was made without lines, its lines are those that were entered
since the last clearing and are kept, the newest first and as many as its size says; its position is
one of a line or in front of the newest one, so that moving never fails; and moves from in front of
the newest line give the lines at the positions that single steps lead to, which end at the oldest
line and in front of the newest one. -/
theorem recalls_kept (bound : Option Nat) (calls : List HistoryCall) :
    let history := (create [] (bound.map Int.ofNat)).run calls
    let lines := (kept (entered calls)).reverse
    history.entries = (match bound with | none => lines | some size => lines.take size) ∧
      (-1 ≤ history.index ∧ history.index < history.entries.length) ∧
      (∃ line, history.next.1 = .ok line) ∧ (∃ line, history.previous.1 = .ok line) ∧
      ∀ moves, (history.resetIndex.navigate moves).1 =
        (Move.positions history.entries.length (-1) moves).map fun position =>
          .ok (lineAt history.entries position) := by
  intro history lines
  have hholds : history.Holds bound (entered calls) := holds_run bound calls
  refine ⟨hholds.entries, ⟨hholds.ge, hholds.lt⟩, ?_, ?_, ?_⟩
  · exact ⟨_, hholds.go_given .newer⟩
  · exact ⟨_, hholds.go_given .older⟩
  · intro moves
    exact hholds.resetIndex.navigate_eq moves

example : ((create [] (some 2)).run [.add "ls", .add " cd /", .add "cd / ", .add "", .add "pwd"]
    ).navigate [.older, .older, .older, .newer, .newer] =
      ([.ok "pwd", .ok " cd /", .ok " cd /", .ok "pwd", .ok []],
        ⟨["pwd", " cd /"], -1, some 2⟩) := by
  decide +kernel

end History

end MemShell
