import Mathlib.Data.List.Basic
import Mathlib.Data.List.GetD

/-! # Templates and lexers

A template is a text with holes for values. A lexer reads a text one character
at a time and cuts it into tokens; some of them are literals. A value that the
lexer reads without a cut and without a change of its mode is inert. Inert values
go into the tokens of the template, one for one, wherever the holes are.
-/

namespace VcWorkspace.Text

open List

section Templates

/-- A character of a template or the hole for the value of a number. -/
inductive Piece
  | char (c : Char)
  | hole (i : ℕ)
  deriving DecidableEq, Repr

abbrev Template := List Piece

def verbatim (s : String) : Template := s.toList.map .char

/-- The template of a format: holes for `%s`, numbered from `i`, and a percent sign for `%%`. -/
def formatFrom (i : ℕ) : List Char → Template
  | [] => []
  | '%' :: 's' :: cs => .hole i :: formatFrom (i + 1) cs
  | '%' :: '%' :: cs => .char '%' :: formatFrom i cs
  | c :: cs => .char c :: formatFrom i cs

def format (s : String) : Template := formatFrom 0 s.toList

def holes (t : Template) : List ℕ := t.filterMap fun
  | .char _ => none
  | .hole i => some i

def Piece.fill (values : ℕ → List Char) : Piece → List Char
  | .char c => [c]
  | .hole i => values i

def fill (values : ℕ → List Char) (t : Template) : List Char := t.flatMap (·.fill values)

def arguments (args : List String) (i : ℕ) : List Char := (args.getD i "").toList

def sprintf (s : String) (args : List String) : String :=
  String.ofList (fill (arguments args) (format s))

variable {values : ℕ → List Char} {t t' : Template} {s : String} {cs : List Char}
  {args : List String}

theorem toList_eq (h : s = String.ofList cs) : s.toList = cs := by
  rw [h, String.toList_ofList]

theorem toList_join_eq {parts : List String} {css : List (List Char)}
    (h : List.Forall₂ (fun s cs => s = String.ofList cs) parts css) :
    (String.join parts).toList = css.flatten := by
  rw [String.toList_join]
  induction h with
  | nil => rfl
  | cons hs _ ih => rw [flatMap_cons, flatten_cons, ih, toList_eq hs]

theorem format_eq (h : s.toList = cs) : format s = formatFrom 0 cs := by
  rw [format, h]

theorem verbatim_eq (h : s.toList = cs) : verbatim s = cs.map .char := by
  rw [verbatim, h]

theorem forall_mem_of_all {α : Type} {cs : List α} {P : α → Prop} [DecidablePred P]
    (h : cs.all (fun c => decide (P c)) = true) : ∀ c ∈ cs, P c :=
  fun c hc => of_decide_eq_true (all_eq_true.mp h c hc)

theorem forall_mem_arguments {P : Char → Prop} (h : ∀ v ∈ args, ∀ c ∈ v.toList, P c) (i : ℕ) :
    ∀ c ∈ arguments args i, P c := by
  intro c hc
  rcases Nat.lt_or_ge i args.length with hi | hi
  · rw [arguments, getD_eq_getElem _ _ hi] at hc
    exact h _ (getElem_mem hi) c hc
  · rw [arguments, getD_eq_default _ _ hi] at hc
    cases hc

@[simp] theorem fill_append : fill values (t ++ t') = fill values t ++ fill values t' :=
  flatMap_append

@[simp] theorem fill_verbatim : fill values (verbatim s) = s.toList := by
  simp [fill, verbatim, flatMap_map, Piece.fill]

theorem fill_arguments_append {more : List String} (h : ∀ i ∈ holes t, i < args.length) :
    fill (arguments (args ++ more)) t = fill (arguments args) t := by
  refine flatMap_congr fun a ha => ?_
  cases a with
  | char c => rfl
  | hole i =>
    have hi := h i (mem_filterMap.mpr ⟨_, ha, rfl⟩)
    simp only [Piece.fill, arguments, getD_append _ _ _ _ hi]

@[simp] theorem toList_sprintf : (sprintf s args).toList = fill (arguments args) (format s) := by
  simp [sprintf]

end Templates

/-- A reader of characters: its modes, the characters at which a token ends, which belong to none,
and the modes that read a literal. -/
structure Lexer (κ : Type) where
  Mode : Type
  start : Mode
  next : Mode → κ → Mode
  cut : Mode → κ → Bool
  literal : Mode → Bool

structure Token (κ : Type) where
  literal : Bool
  text : List κ
  deriving DecidableEq, Repr

def extend {κ : Type} (x : List κ) : List (Token κ) → List (Token κ)
  | [] => []
  | t :: ts => { t with text := x ++ t.text } :: ts

def Token.fill (values : ℕ → List Char) (t : Token Piece) : Token Char :=
  ⟨t.literal, Text.fill values t.text⟩

namespace Lexer

section Tokens

variable {κ : Type} (L : Lexer κ)

def tokens : L.Mode → List κ → List (Token κ)
  | q, [] => [⟨L.literal q, []⟩]
  | q, c :: cs =>
    if L.cut q c then ⟨L.literal q, []⟩ :: tokens (L.next q c) cs
    else extend [c] (tokens (L.next q c) cs)

end Tokens

variable (L : Lexer Char)

def onTemplates : Lexer Piece where
  Mode := L.Mode
  start := L.start
  next q
    | .char c => L.next q c
    | .hole _ => q
  cut q
    | .char c => L.cut q c
    | .hole _ => false
  literal := L.literal

/-- Every hole of a template meets a condition on the mode it is read in. -/
def holesIn (p : L.Mode → Bool) : L.Mode → Template → Bool
  | _, [] => true
  | q, .char c :: t => holesIn p (L.next q c) t
  | q, .hole _ :: t => p q && holesIn p q t

def Inert (q : L.Mode) (x : List Char) : Prop := ∀ c ∈ x, L.next q c = q ∧ L.cut q c = false

variable {L} {q : L.Mode} {p : L.Mode → Bool} {values : ℕ → List Char} {t : Template}
  {x cs : List Char}

theorem extend_extend {κ : Type} {x y : List κ} {ts : List (Token κ)} :
    extend x (extend y ts) = extend (x ++ y) ts := by
  cases ts <;> simp [extend]

theorem extend_nil {κ : Type} {ts : List (Token κ)} : extend [] ts = ts := by
  cases ts <;> simp [extend]

theorem tokens_append (h : L.Inert q x) : L.tokens q (x ++ cs) = extend x (L.tokens q cs) := by
  induction x with
  | nil => exact extend_nil.symm
  | cons c x ih =>
    obtain ⟨hnext, hcut⟩ := h c (mem_cons_self ..)
    have hrest := ih fun d hd => h d (mem_cons_of_mem c hd)
    simp [tokens, hnext, hcut, hrest, extend_extend]

/-- A literal has only characters that are read in its mode without a cut. -/
theorem literal_of_mem_tokens {κ : Type} {L : Lexer κ} {P : κ → Prop} {q : L.Mode} {cs : List κ}
    (h : ∀ q c, L.cut q c = false → L.literal (L.next q c) = true → L.literal q = true ∧ P c) :
    (∀ t ∈ L.tokens q cs, t.literal = true → ∀ c ∈ t.text, P c) ∧
      ∀ t ∈ (L.tokens q cs).head?, t.literal = true → L.literal q = true := by
  induction cs generalizing q with
  | nil => simp [tokens]
  | cons c cs ih =>
    obtain ⟨hrest, hhead⟩ := ih (q := L.next q c)
    cases hcut : L.cut q c with
    | true =>
      rw [tokens, if_pos hcut]
      simpa using hrest
    | false =>
      rw [tokens, if_neg (by simp [hcut])]
      cases hts : L.tokens (L.next q c) cs with
      | nil => simp [extend]
      | cons t ts =>
        rw [hts] at hrest hhead
        have hfirst := fun hl => h q c hcut (hhead t rfl hl)
        simp only [extend, mem_cons, forall_eq_or_imp, cons_append, nil_append, head?_cons,
          Option.mem_some_iff, forall_eq'] at hrest ⊢
        exact ⟨⟨fun hl => ⟨(hfirst hl).2, hrest.1 hl⟩, hrest.2⟩, fun hl => (hfirst hl).1⟩

theorem map_fill_extend {x : Template} {ts : List (Token Piece)} :
    (extend x ts).map (Token.fill values) =
      extend (fill values x) (ts.map (Token.fill values)) := by
  cases ts <;> simp [extend, Token.fill]

theorem tokens_char {c : Char} : L.onTemplates.tokens q (.char c :: t) =
    if L.cut q c then ⟨L.literal q, []⟩ :: L.onTemplates.tokens (L.next q c) t
    else extend [.char c] (L.onTemplates.tokens (L.next q c) t) := rfl

theorem tokens_hole {i : ℕ} : L.onTemplates.tokens q (.hole i :: t) =
    extend [.hole i] (L.onTemplates.tokens q t) := rfl

theorem tokens_fill (h : L.holesIn p q t = true)
    (hvalues : ∀ i q, p q = true → L.Inert q (values i)) :
    L.tokens q (fill values t) = (L.onTemplates.tokens q t).map (Token.fill values) := by
  induction t generalizing q with
  | nil => rfl
  | cons a t ih =>
    cases a with
    | char c =>
      have hrest := ih (q := L.next q c) h
      change L.tokens q (c :: fill values t) = _
      rw [tokens_char, tokens, hrest]
      split
      · rfl
      · rw [map_fill_extend]
        rfl
    | hole i =>
      obtain ⟨hp, hrest⟩ := Bool.and_eq_true_iff.mp h
      change L.tokens q (values i ++ fill values t) = _
      rw [tokens_append (hvalues i q hp), ih hrest, tokens_hole, map_fill_extend]
      simp [fill, Piece.fill]

end Lexer

end VcWorkspace.Text
