import Mathlib.Data.List.DropRight
import VcWorkspace.Text.Template

/-! # Files of sections and options

A file is read line by line: a line opens a section, names an option, goes on
with the line before it, or says nothing. A template of a file is read the same
way. Values without line breaks leave the lines of a template as they are, and
values without closing brackets its sections.
-/

namespace VcWorkspace.Text.Ini

open List

inductive Line (α : Type)
  | blank
  | comment
  | continuation
  | header (name : α)
  | option (name : α)
  deriving DecidableEq, Repr

def Line.map {α β : Type} (f : α → β) : Line α → Line β
  | .blank => .blank
  | .comment => .comment
  | .continuation => .continuation
  | .header name => .header (f name)
  | .option name => .option (f name)

def optionNames {α : Type} (ls : List (Line α)) : List α := ls.filterMap fun
  | .option name => some name
  | _ => none

def readLine {κ : Type} [DecidableEq κ] (char : Char → κ) : List κ → Line (List κ)
  | [] => .blank
  | x :: xs =>
    if x = char '[' then .header (xs.takeWhile (· != char ']'))
    else if x = char '#' ∨ x = char ';' then .comment
    else if x = char ' ' ∨ x = char '\t' then .continuation
    else .option (((x :: xs).takeWhile (· != char '=')).rdropWhile (· == char ' '))

def lineBreaks : List Char := ['\n', '\r']

def lineLexer : Lexer Char where
  Mode := Unit
  start := ()
  next _ _ := ()
  cut _ c := c ∈ lineBreaks
  literal _ := false

def lines (file : List Char) : List (List Char) := (lineLexer.tokens () file).map Token.text

def templateLines (t : Template) : List Template :=
  (lineLexer.onTemplates.tokens () t).map Token.text

def read (file : List Char) : List (Line (List Char)) := (lines file).map (readLine id)

def readTemplate (t : Template) : List (Line Template) :=
  (templateLines t).map (readLine Piece.char)

def readFile (file : String) : List (Line String) :=
  (read file.toList).map (Line.map String.ofList)

def fixesName : Template → Bool
  | [] => true
  | .hole _ :: _ => false
  | .char c :: t => c = '[' || holes (t.takeWhile (· != Piece.char '=')) = []

variable {values : ℕ → List Char} {t : Template}

theorem holesIn_lineLexer : lineLexer.holesIn (fun _ => true) () t = true := by
  induction t with
  | nil => rfl
  | cons a t ih =>
    cases a with
    | char c => exact ih
    | hole i => exact Bool.and_eq_true_iff.mpr ⟨rfl, ih⟩

theorem lines_fill (h : ∀ i, ∀ c ∈ values i, c ∉ lineBreaks) :
    lines (fill values t) = (templateLines t).map (fill values) := by
  have htokens : lineLexer.tokens () (fill values t) =
      (lineLexer.onTemplates.tokens () t).map (Token.fill values) :=
    Lexer.tokens_fill holesIn_lineLexer fun i q _ c hc =>
      ⟨rfl, by simpa [lineLexer] using h i c hc⟩
  rw [lines, htokens, templateLines, map_map, map_map]
  rfl

theorem takeWhile_fill (stop : Char)
    (h : ∀ i ∈ holes (t.takeWhile (· != Piece.char stop)), stop ∉ values i) :
    (fill values t).takeWhile (· != stop) = fill values (t.takeWhile (· != Piece.char stop)) := by
  induction t with
  | nil => rfl
  | cons a t ih =>
    cases a with
    | char c =>
      change (c :: fill values t).takeWhile _ = _
      by_cases hc : c = stop
      · simp [hc, fill]
      · have htake : (Piece.char c :: t).takeWhile (· != Piece.char stop) =
            .char c :: t.takeWhile (· != Piece.char stop) := by
          simp [hc]
        rw [htake] at h ⊢
        rw [takeWhile_cons_of_pos (by simpa using hc), ih h]
        rfl
    | hole i =>
      have hi : ∀ c ∈ values i, (c != stop) = true := fun c hc =>
        bne_iff_ne.mpr fun heq => h i (mem_cons_self ..) (heq ▸ hc)
      change (values i ++ fill values t).takeWhile _ = values i ++ fill values _
      rw [takeWhile_append_of_pos hi, ih fun j hj => h j (mem_cons_of_mem i hj)]

theorem exists_chars (h : holes t = []) : ∃ cs : List Char, t = cs.map .char := by
  induction t with
  | nil => exact ⟨[], rfl⟩
  | cons a t ih =>
    cases a with
    | char c =>
      obtain ⟨cs, rfl⟩ := ih h
      exact ⟨c :: cs, rfl⟩
    | hole i => cases h

theorem fill_chars (cs : List Char) : fill values (cs.map .char) = cs := by
  simp [fill, flatMap_map, Piece.fill]

theorem rdropWhile_fill (h : holes t = []) :
    (fill values t).rdropWhile (· == ' ') = fill values (t.rdropWhile (· == Piece.char ' ')) := by
  obtain ⟨cs, rfl⟩ := exists_chars h
  have hmap : (cs.map Piece.char).rdropWhile (· == Piece.char ' ') =
      (cs.rdropWhile (· == ' ')).map Piece.char := by
    simp only [List.rdropWhile, ← map_reverse, dropWhile_map]
    congr 4
    funext c
    simp
  rw [hmap, fill_chars, fill_chars]

theorem readLine_fill (hname : fixesName t = true)
    (hheader : ∀ name, readLine Piece.char t = .header name → ∀ i ∈ holes name, ']' ∉ values i) :
    readLine id (fill values t) = (readLine Piece.char t).map (fill values) := by
  cases t with
  | nil => rfl
  | cons a t =>
    cases a with
    | hole i => cases hname
    | char c =>
      change readLine id (c :: fill values t) = _
      by_cases hopen : c = '['
      · simp only [readLine, hopen, id_eq] at hheader ⊢
        rw [takeWhile_fill ']' (hheader _ rfl)]
        rfl
      · have hfixed : holes ((.char c :: t).takeWhile (· != Piece.char '=')) = [] := by
          have hrest : holes (t.takeWhile (· != Piece.char '=')) = [] := by
            simpa [fixesName, hopen] using hname
          by_cases hstop : c = '='
          · simp [hstop, holes]
          · rw [takeWhile_cons_of_pos (by simpa using hstop)]
            exact hrest
        have htake : (fill values (.char c :: t)).takeWhile (· != '=') = fill values _ :=
          takeWhile_fill '=' (by rw [hfixed]; exact nofun)
        have hdrop : _ = fill values _ := rdropWhile_fill hfixed
        rw [← htake] at hdrop
        simp only [readLine, id_eq, hopen, if_false, Piece.char.injEq]
        split
        · rfl
        · split
          · rfl
          · exact congrArg Line.option hdrop

theorem read_fill (hnames : ∀ l ∈ templateLines t, fixesName l = true)
    (hbreaks : ∀ i, ∀ c ∈ values i, c ∉ lineBreaks)
    (hheaders : ∀ name, .header name ∈ readTemplate t → ∀ i ∈ holes name, ']' ∉ values i) :
    read (fill values t) = (readTemplate t).map (Line.map (fill values)) := by
  rw [read, lines_fill hbreaks, readTemplate, map_map, map_map]
  refine map_congr_left fun l hl => readLine_fill (hnames l hl) fun name hname => ?_
  exact hheaders name (mem_map.mpr ⟨l, hl, hname⟩)

end VcWorkspace.Text.Ini
