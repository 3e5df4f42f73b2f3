import Mathlib.Data.List.TakeWhile
import VcWorkspace.Store.AgentSession
import VcWorkspace.Text.Decimal
import VcWorkspace.Text.Hex
import VcWorkspace.Text.Pattern

/-! # Session identities in both languages

Accounts and sessions are checked by the control plane, by the database and by three
parts of the Guest, with patterns, by splitting and parsing, or by writing a number
again and comparing. The checks of Windows accounts take the same texts, and the
checks of sessions the same sessions, as far as a process number is canonical.
-/

namespace VcWorkspace.Protocol.SessionIdentity

open Guest Session Store Text List Decimal Pattern

section ControlPlane

def hexClass : List UInt8 := range 97 102 ++ range 48 57

def digitClass : List UInt8 := range 48 57

/-- The pattern `^(vca|vcw)[a-f0-9]{12}$`. -/
def managedUser : Pattern :=
  (literal (bytes "vca") + literal (bytes "vcw")) *
    times (anyOf hexClass) 12

/-- The pattern `^[a-f0-9]{64}$`. -/
def instancePattern : Pattern := times (anyOf hexClass) 64

/-- The pattern `^:[0-9]+(\.[0-9]+)?$`. -/
def linuxDisplay : Pattern :=
  literal (bytes ":") * (many (anyOf digitClass) *
    (1 + literal (bytes ".") * many (anyOf digitClass)))

def validAccount (platform : String) (uid : ℕ) (sid : String) : Bool :=
  match platform with
  | "linux" => 1000 ≤ uid && sid == ""
  | "windows" => uid == 0 && validWindowsAccountSid sid
  | _ => false

def validWindowsLogonBinding (sessionId : String) : Bool :=
  (bytes sessionId).length ≤ 128 &&
    match (stripStart (bytes sessionId) (bytes "windows:")).map (·.splitOn 58) with
    | some [id, luid] =>
      luid.length == 16 && luid != bytes "0000000000000000" &&
        ((parseUint32 id).any fun n => n != 0 && bytes (toString n) == id) &&
        (Hex.number luid).any fun n => n < 2 ^ 64 && Hex.padded 16 n == luid
    | _ => false

def validSession (platform username : String) (uid : ℕ) (sid sessionId instanceId : String) :
    Bool :=
  managedUser.rmatch (bytes username) && instancePattern.rmatch (bytes instanceId) &&
    validAccount platform uid sid && (bytes sessionId).length ≤ 128 &&
    if platform == "windows" then validWindowsLogonBinding sessionId
    else
      match (stripStart (bytes sessionId) (bytes s!"linux:{uid}:")).bind (splitOnce · 58) with
      | some (pid, display) =>
        ((parseUint32 pid).any fun id => 0 < id && bytes (toString id) == pid) &&
          display.length ≤ 16 && linuxDisplay.rmatch display
      | none => false

end ControlPlane

section Database

/-- The pattern `[1-9][0-9]{0,9}`. -/
def positiveComponent : Pattern :=
  anyOf (range 49 57) * between (anyOf digitClass) 0 9

/-- The pattern `0|[1-9][0-9]{0,9}`. -/
def component : Pattern := literal (bytes "0") + positiveComponent

def sidPattern : Pattern :=
  literal (bytes "S-1-5-21-") * (component * (literal (bytes "-") *
    (component * (literal (bytes "-") * (component * (literal (bytes "-") *
      positiveComponent))))))

def vcwValidSid (sid : String) : Bool :=
  let parts := (bytes sid).splitOn 45
  sidPattern.rmatch (bytes sid) &&
    (parts.drop 4).all (fun part => value part ≤ 4294967295) &&
    (parts[7]?).any fun part => 1000 ≤ value part

end Database

section Classes

variable {b : UInt8}

theorem mem_digitClass : b ∈ digitClass ↔ isAsciiDigit b = true := by
  simp only [digitClass, Pattern.mem_range, isAsciiDigit, Bool.and_eq_true, decide_eq_true_eq]

theorem mem_hexClass : b ∈ hexClass ↔ isLowerHex b = true := by
  simp only [hexClass, mem_append, Pattern.mem_range, isLowerHex, isAsciiDigit,
    Bool.or_eq_true, Bool.and_eq_true, decide_eq_true_eq]
  exact or_comm

end Classes

variable {parse : List UInt8 → Option ℕ} {p : List UInt8}

section Decimals

theorem bytes_toString (n : ℕ) : bytes (toString n) = Decimal.render n := by
  rw [show toString n = n.repr from rfl, Nat.repr_eq_ofList_toDigits, bytes_ofList, Decimal.render,
    ← flatMap_pure_eq_map]
  refine flatMap_congr fun c hc => if_pos (Nat.lt_succ_iff.mp ?_)
  have hdigit := Nat.isDigit_of_mem_toDigits (by decide) (by decide) hc
  simp only [Char.isDigit, Bool.and_eq_true, decide_eq_true_eq] at hdigit
  exact lt_of_le_of_lt (UInt32.le_iff_toNat_le.mp hdigit.2) (by decide)

/-- A reader of decimals below 2³². -/
structure Reads (parse : List UInt8 → Option ℕ) : Prop where
  bound : ∀ p n, parse p = some n → n < 2 ^ 32
  render : ∀ n, n < 2 ^ 32 → parse (Decimal.render n) = some n

theorem head?_render_ne_plus (n : ℕ) : (Decimal.render n).head? ≠ some 43 := by
  intro h
  exact absurd (isDigit_of_mem_render (mem_of_head? h)) (by decide)

theorem parseU32_render (n : ℕ) :
    parseU32 (Decimal.render n) = if n < 2 ^ 32 then some n else none := by
  have hempty : (Decimal.render n).isEmpty = false :=
    isEmpty_eq_false_iff.mpr (render_ne_nil n)
  have hdigits : (Decimal.render n).all isAsciiDigit = true :=
    all_eq_true.mpr fun b hb => isDigit_of_mem_render hb
  have hvalue := value_render n
  simp only [value] at hvalue
  simp only [parseU32, head?_render_ne_plus, if_false, hempty, hdigits, hvalue]
  rfl

theorem reads_parseU32 : Reads parseU32 := by
  constructor
  · intro p n h
    obtain ⟨-, h⟩ := Option.ite_none_left_eq_some.mp h
    obtain ⟨hlt, h⟩ := Option.ite_none_right_eq_some.mp h
    rwa [← Option.some.inj h]
  · intro n hn
    rw [parseU32_render, if_pos hn]

theorem reads_parseUint32 : Reads parseUint32 := by
  constructor
  · intro p n h
    exact reads_parseU32.bound p n (parseU32_of_parseUint32 h)
  · intro n hn
    rw [parseUint32, if_neg (head?_render_ne_plus n), reads_parseU32.render n hn]

theorem Reads.any_iff (h : Reads parse) (cond : ℕ → Bool) :
    (parse p).any (fun n => cond n && bytes (toString n) == p) = true ↔
      ∃ n, n < 2 ^ 32 ∧ cond n = true ∧ p = Decimal.render n := by
  simp only [Option.any_eq_true, Bool.and_eq_true, beq_iff_eq, bytes_toString]
  constructor
  · rintro ⟨n, hn, hcond, rfl⟩
    exact ⟨n, h.bound _ n hn, hcond, rfl⟩
  · rintro ⟨n, hn, hcond, rfl⟩
    exact ⟨n, h.render n hn, hcond, rfl⟩

theorem Reads.canonical_iff (h : Reads parse) :
    (parse p).any (fun n => bytes (toString n) == p) = true ↔
      ∃ n, n < 2 ^ 32 ∧ p = Decimal.render n := by
  simpa using h.any_iff (fun _ => true)

end Decimals

variable {sid : String}

section AccountSids

/-- The text of an account: a domain of three numbers and the number in it. -/
def accountSid (a b c rid : ℕ) : List UInt8 :=
  [45].intercalate [bytes "S", bytes "1", bytes "5", bytes "21", Decimal.render a,
    Decimal.render b, Decimal.render c, Decimal.render rid]

def IsAccountSid (s : List UInt8) : Prop :=
  ∃ a b c rid, a < 2 ^ 32 ∧ b < 2 ^ 32 ∧ c < 2 ^ 32 ∧ rid < 2 ^ 32 ∧ 1000 ≤ rid ∧
    s = accountSid a b c rid

def splitSid (parse : List UInt8 → Option ℕ) (s : List UInt8) : Bool :=
  let parts := s.splitOn 45
  parts.length == 8 && parts.take 4 == [bytes "S", bytes "1", bytes "5", bytes "21"] &&
    (parts.drop 4).all (fun p => (parse p).any fun n => bytes (toString n) == p) &&
    ((parts[7]?).bind parse).any fun n => 1000 ≤ n

variable {s : List UInt8} {a b c rid : ℕ}

theorem splitOn_accountSid : (accountSid a b c rid).splitOn 45 =
    [bytes "S", bytes "1", bytes "5", bytes "21", Decimal.render a, Decimal.render b,
      Decimal.render c, Decimal.render rid] := by
  refine splitOn_intercalate _ ?_ (cons_ne_nil _ _)
  simp only [forall_mem_cons, notMem_render (b := 45) rfl, not_false_eq_true, true_and]
  exact ⟨by decide, by decide, by decide, by decide, nofun⟩

theorem exists_eight {α : Type} {l : List α} (h : l.length = 8) :
    ∃ a b c d e f g i, l = [a, b, c, d, e, f, g, i] := by
  match l, h with
  | [a, b, c, d, e, f, g, i], _ => exact ⟨a, b, c, d, e, f, g, i, rfl⟩

theorem splitSid_iff (h : Reads parse) : splitSid parse s = true ↔ IsAccountSid s := by
  simp only [splitSid, Bool.and_eq_true, beq_iff_eq, all_eq_true, h.canonical_iff,
    Option.any_eq_true, Option.bind_eq_some_iff, decide_eq_true_eq]
  constructor
  · rintro ⟨⟨⟨hlength, htake⟩, hdrop⟩, rid, ⟨p, hp, hrid⟩, hmin⟩
    obtain ⟨x, y, z, w, p₁, p₂, p₃, p₄, hparts⟩ := exists_eight hlength
    have hjoin : [45].intercalate (s.splitOn 45) = s := intercalate_splitOn 45
    rw [hparts] at htake hdrop hp hjoin
    simp only [drop_succ_cons, drop_zero, forall_mem_cons] at hdrop
    obtain ⟨rfl, rfl, rfl, rfl⟩ := htake
    obtain ⟨⟨a, ha, rfl⟩, ⟨b, hb, rfl⟩, ⟨c, hc, rfl⟩, ⟨d, hd, rfl⟩, -⟩ := hdrop
    cases hp
    rw [h.render d hd] at hrid
    obtain rfl := Option.some.inj hrid
    exact ⟨a, b, c, d, ha, hb, hc, hd, hmin, hjoin.symm⟩
  · rintro ⟨a, b, c, rid, ha, hb, hc, hrid, hmin, rfl⟩
    rw [splitOn_accountSid]
    refine ⟨⟨⟨rfl, rfl⟩, ?_⟩, rid, ⟨Decimal.render rid, rfl, h.render rid hrid⟩, hmin⟩
    simp only [drop_succ_cons, drop_zero, forall_mem_cons]
    exact ⟨⟨a, ha, rfl⟩, ⟨b, hb, rfl⟩, ⟨c, hc, rfl⟩, ⟨rid, hrid, rfl⟩, nofun⟩

theorem validSid_iff {account : AccountIdentity} :
    account.validSid = true ↔ IsAccountSid (bytes account.sid) :=
  splitSid_iff reads_parseU32

theorem length_render {n : ℕ} (h : n < 2 ^ 32) : (Decimal.render n).length ≤ 10 := by
  rw [Decimal.render, length_map]
  exact Nat.toDigits_length 10 n 10 (by decide) (by omega)

theorem length_accountSid (ha : a < 2 ^ 32) (hb : b < 2 ^ 32) (hc : c < 2 ^ 32)
    (hrid : rid < 2 ^ 32) : (accountSid a b c rid).length ≤ 52 := by
  have ha' := length_render ha
  have hb' := length_render hb
  have hc' := length_render hc
  have hrid' := length_render hrid
  have hfixed : (bytes "S").length = 1 ∧ (bytes "1").length = 1 ∧ (bytes "5").length = 1 ∧
      (bytes "21").length = 2 := by decide
  simp only [accountSid, intercalate, intersperse, flatten_cons, flatten_nil,
    length_append, length_singleton, length_nil, hfixed]
  omega

theorem validWindowsAccountSid_iff :
    validWindowsAccountSid sid = true ↔ IsAccountSid (bytes sid) := by
  have hsplit : validWindowsAccountSid sid =
      ((bytes sid).length ≤ 56 && splitSid parseUint32 (bytes sid)) := by
    simp only [validWindowsAccountSid, splitSid, Bool.and_assoc]
  rw [hsplit, Bool.and_eq_true, decide_eq_true_eq, splitSid_iff reads_parseUint32]
  constructor
  · exact And.right
  · rintro ⟨a, b, c, rid, ha, hb, hc, hrid, hmin, hs⟩
    have hlength := length_accountSid ha hb hc hrid
    exact ⟨by rw [hs]; omega, a, b, c, rid, ha, hb, hc, hrid, hmin, hs⟩

theorem validAccountSid_iff (h : sid ≠ "S-1-5-18") :
    validAccountSid sid = true ↔ IsAccountSid (bytes sid) := by
  rw [validAccountSid, Bool.or_eq_true, beq_iff_eq, or_iff_right h]
  exact validSid_iff

theorem mem_positiveComponent : p ∈ positiveComponent.matches' ↔
    ∃ n, 0 < n ∧ p = Decimal.render n ∧ p.length ≤ 10 := by
  rw [positiveComponent, mem_anyOf_mul]
  simp only [Pattern.mem_between (Nat.zero_le 9), Pattern.mem_range, mem_digitClass]
  constructor
  · rintro ⟨c, ⟨hlo, hhi⟩, y, ⟨-, hlength, hdigits⟩, rfl⟩
    have hne : c ≠ 48 := by
      rintro rfl
      exact absurd hlo (by decide)
    have hc : isAsciiDigit c = true :=
      Bool.and_eq_true_iff.mpr ⟨decide_eq_true (UInt8.le_trans (by decide) hlo), decide_eq_true hhi⟩
    have hcanonical : canonical (c :: y) = true := by
      simp only [canonical, isEmpty_cons, Bool.not_false, all_cons,
        head?_cons, Bool.true_and, Bool.and_eq_true, Bool.or_eq_true, bne_iff_ne,
        all_eq_true]
      exact ⟨⟨hc, hdigits⟩, .inl fun h => hne (Option.some.inj h)⟩
    have hrender := render_value hcanonical
    refine ⟨value (c :: y), Nat.pos_of_ne_zero fun hzero => hne ?_, hrender.symm, ?_⟩
    · rw [hzero] at hrender
      exact (cons.inj hrender).1.symm
    · rw [length_cons]
      omega
  · rintro ⟨n, hn, hp, hlength⟩
    cases p with
    | nil => exact absurd hp.symm (render_ne_nil n)
    | cons c y =>
      have hdigits (b : UInt8) (hb : b ∈ c :: y) : isAsciiDigit b = true :=
        isDigit_of_mem_render (n := n) (hp ▸ hb)
      have hhead : c ≠ 48 := by
        rintro rfl
        exact head?_render hn (by rw [← hp]; rfl)
      have hc := isDigit_iff.mp (hdigits c mem_cons_self)
      have hne : c.toNat ≠ 48 := fun h => hhead (UInt8.toNat_inj.mp h)
      refine ⟨c, ⟨UInt8.le_iff_toNat_le.mpr ?_, UInt8.le_iff_toNat_le.mpr hc.2⟩, y,
        ⟨Nat.zero_le _, Nat.le_of_succ_le_succ hlength,
          fun b hb => hdigits b (mem_cons_of_mem c hb)⟩, rfl⟩
      show 49 ≤ c.toNat
      omega

theorem mem_component : p ∈ component.matches' ↔ ∃ n, p = Decimal.render n ∧ p.length ≤ 10 := by
  rw [component, mem_add, mem_literal, mem_positiveComponent]
  constructor
  · rintro (rfl | ⟨n, -, hn⟩)
    · exact ⟨0, by decide⟩
    · exact ⟨n, hn⟩
  · rintro ⟨n, hp, hlength⟩
    rcases Nat.eq_zero_or_pos n with rfl | hn
    · exact .inl hp
    · exact .inr ⟨n, hn, hp, hlength⟩

theorem accountSid_eq : accountSid a b c rid = bytes "S-1-5-21-" ++ (Decimal.render a ++
    (bytes "-" ++ (Decimal.render b ++ (bytes "-" ++ (Decimal.render c ++ (bytes "-" ++
      Decimal.render rid)))))) := by
  have hfixed : bytes "S-1-5-21-" = bytes "S" ++ [45] ++ (bytes "1" ++ [45]) ++
      (bytes "5" ++ [45]) ++ (bytes "21" ++ [45]) := by decide
  have hdash : bytes "-" = [45] := by decide
  simp only [accountSid, intercalate, intersperse, flatten_cons, flatten_nil,
    append_nil, append_assoc, hfixed, hdash]

theorem vcwValidSid_iff : vcwValidSid sid = true ↔ IsAccountSid (bytes sid) := by
  simp only [vcwValidSid, Bool.and_eq_true, rmatch_iff, sidPattern, mem_literal_mul,
    mem_mul (p := component)]
  constructor
  · rintro ⟨⟨⟨_, ⟨p₁, _, h₁, ⟨_, ⟨p₂, _, h₂, ⟨_, ⟨p₃, _, h₃, ⟨p₄, h₄, rfl⟩, rfl⟩, rfl⟩, rfl⟩,
      rfl⟩, rfl⟩, hsid⟩, hall⟩, hlast⟩
    obtain ⟨a, rfl, -⟩ := mem_component.mp h₁
    obtain ⟨b, rfl, -⟩ := mem_component.mp h₂
    obtain ⟨c, rfl, -⟩ := mem_component.mp h₃
    obtain ⟨d, -, rfl, -⟩ := mem_positiveComponent.mp h₄
    rw [← accountSid_eq] at hsid
    rw [hsid, splitOn_accountSid] at hall hlast
    simp only [drop_succ_cons, drop_zero, all_cons, all_nil, Bool.and_true,
      Bool.and_eq_true, decide_eq_true_eq, value_render] at hall
    have hmin : 1000 ≤ d := by
      simpa only [getElem?_cons_succ, getElem?_cons_zero, Option.any_some,
        decide_eq_true_eq, value_render] using hlast
    exact ⟨a, b, c, d, by omega, by omega, by omega, by omega, hmin, hsid⟩
  · rintro ⟨a, b, c, rid, ha, hb, hc, hrid, hmin, hsid⟩
    rw [hsid, splitOn_accountSid]
    refine ⟨⟨⟨_, ⟨_, _, mem_component.mpr ⟨a, rfl, length_render ha⟩,
      ⟨_, ⟨_, _, mem_component.mpr ⟨b, rfl, length_render hb⟩,
        ⟨_, ⟨_, _, mem_component.mpr ⟨c, rfl, length_render hc⟩,
          ⟨_, mem_positiveComponent.mpr ⟨rid, by omega, rfl, length_render hrid⟩, rfl⟩, rfl⟩,
          rfl⟩, rfl⟩, rfl⟩, rfl⟩, accountSid_eq⟩, ?_⟩, ?_⟩
    · simp only [drop_succ_cons, drop_zero, all_cons, all_nil, Bool.and_true,
        Bool.and_eq_true, decide_eq_true_eq, value_render]
      omega
    · simp only [getElem?_cons_succ, getElem?_cons_zero, Option.any_some,
        decide_eq_true_eq, value_render]
      exact hmin

end AccountSids

section Sessions

variable {s : String} {d l : List UInt8}

theorem managedUser_rmatch : managedUser.rmatch (bytes s) = managedName s := by
  rw [Bool.eq_iff_iff, rmatch_iff, managedUser, mem_mul]
  simp only [mem_add, mem_literal, mem_times, mem_hexClass, managedName,
    startsWith, Bool.and_eq_true, Bool.or_eq_true, beq_iff_eq, isPrefixOf_iff_prefix,
    all_eq_true]
  have hthree : (bytes "vca").length = 3 ∧ (bytes "vcw").length = 3 := by decide
  constructor
  · rintro ⟨y, z, hy, ⟨hlength, hall⟩, hs⟩
    have hy3 : y.length = 3 := by
      rcases hy with rfl | rfl
      · exact hthree.1
      · exact hthree.2
    rw [hs, length_append, drop_left' hy3]
    refine ⟨⟨by omega, ?_⟩, hall⟩
    rcases hy with rfl | rfl
    · exact .inl (prefix_append _ z)
    · exact .inr (prefix_append _ z)
  · rintro ⟨⟨hlength, hstart⟩, hall⟩
    have key (start : List UInt8) (hstart : start <+: bytes s) (h3 : start.length = 3) :
        ∃ z, (z.length = 12 ∧ ∀ c ∈ z, isLowerHex c = true) ∧ bytes s = start ++ z := by
      obtain ⟨z, hz⟩ := hstart
      rw [← hz, drop_left' h3] at hall
      rw [← hz, length_append] at hlength
      exact ⟨z, ⟨by omega, hall⟩, hz.symm⟩
    rcases hstart with h | h
    · obtain ⟨z, hz, hs⟩ := key _ h hthree.1
      exact ⟨_, z, .inl rfl, hz, hs⟩
    · obtain ⟨z, hz, hs⟩ := key _ h hthree.2
      exact ⟨_, z, .inr rfl, hz, hs⟩

theorem instance_rmatch : instancePattern.rmatch (bytes s) = validInstance s := by
  rw [Bool.eq_iff_iff, rmatch_iff, instancePattern, mem_times]
  simp only [mem_hexClass, validInstance, Bool.and_eq_true, beq_iff_eq, all_eq_true]

theorem stripStart_eq_some {rest : List UInt8} : stripStart l p = some rest ↔ l = p ++ rest := by
  rw [stripStart, Option.ite_none_right_eq_some, isPrefixOf_iff_prefix]
  constructor
  · rintro ⟨⟨t, rfl⟩, h⟩
    rw [drop_left] at h
    rw [Option.some.inj h]
  · rintro rfl
    exact ⟨prefix_append p rest, by rw [drop_left]⟩

variable {l : List UInt8}

section Splitting

variable {sep : UInt8} {a b : List UInt8}

theorem splitOn_single (h : sep ∉ l) : l.splitOn sep = [l] := by
  have hjoin : ([sep].intercalate [l]).splitOn sep = [l] :=
    splitOn_intercalate sep (forall_mem_singleton.mpr h) (cons_ne_nil _ _)
  rwa [intercalate_singleton] at hjoin

theorem splitOn_pair (ha : sep ∉ a) (hb : sep ∉ b) : (a ++ sep :: b).splitOn sep = [a, b] := by
  have hjoin : ([sep].intercalate [a, b]).splitOn sep = [a, b] :=
    splitOn_intercalate sep
      (forall_mem_cons.mpr ⟨ha, forall_mem_singleton.mpr hb⟩) (cons_ne_nil _ _)
  rwa [intercalate_cons_cons, intercalate_singleton, append_assoc] at hjoin

theorem eq_of_splitOn_single (h : l.splitOn sep = [a]) : a = l := by
  have hjoin : [sep].intercalate (l.splitOn sep) = l := intercalate_splitOn sep
  rwa [h, intercalate_singleton] at hjoin

theorem eq_of_splitOn_pair (h : l.splitOn sep = [a, b]) : l = a ++ sep :: b := by
  have hjoin : [sep].intercalate (l.splitOn sep) = l := intercalate_splitOn sep
  rw [h, intercalate_cons_cons, intercalate_singleton, append_assoc] at hjoin
  exact hjoin.symm

end Splitting

def Digits (p : List UInt8) : Prop := p ≠ [] ∧ ∀ c ∈ p, isAsciiDigit c = true

theorem Digits.notMem {c : UInt8} (h : Digits p) (hc : isAsciiDigit c = false) : c ∉ p :=
  fun hmem => Bool.noConfusion (hc.symm.trans (h.2 c hmem))

theorem localDisplay_iff : localDisplay d = true ↔ d.length ≤ 16 ∧
    ((∃ a, Digits a ∧ d = 58 :: a) ∨ ∃ a b, Digits a ∧ Digits b ∧ d = 58 :: (a ++ 46 :: b)) := by
  have hparts (number : List UInt8) : (1 ≤ (number.splitOn 46).length ∧
      (number.splitOn 46).length ≤ 2 ∧ ∀ part ∈ number.splitOn 46, Digits part) ↔
      Digits number ∨ ∃ a b, Digits a ∧ Digits b ∧ number = a ++ 46 :: b := by
    constructor
    · rintro ⟨hlo, hhi, hdigits⟩
      match hsplit : number.splitOn 46, hlo, hhi with
      | [a], _, _ =>
        rw [hsplit] at hdigits
        exact .inl (eq_of_splitOn_single hsplit ▸ hdigits a (by simp))
      | [a, b], _, _ =>
        rw [hsplit] at hdigits
        exact .inr ⟨a, b, hdigits a (by simp), hdigits b (by simp), eq_of_splitOn_pair hsplit⟩
    · rintro (h | ⟨a, b, ha, hb, rfl⟩)
      · rw [splitOn_single (h.notMem rfl)]
        exact ⟨by simp, by simp, forall_mem_singleton.mpr h⟩
      · rw [splitOn_pair (ha.notMem rfl) (hb.notMem rfl)]
        exact ⟨by simp, by simp, forall_mem_cons.mpr ⟨ha, forall_mem_singleton.mpr hb⟩⟩
  simp only [localDisplay]
  cases hstrip : stripStart d [58] with
  | none =>
    have hne (rest : List UInt8) : d ≠ 58 :: rest := by
      rintro rfl
      exact absurd (hstrip.symm.trans (stripStart_eq_some.mpr rfl)) (by simp)
    simp [hne]
  | some number =>
    obtain rfl := stripStart_eq_some.mp hstrip
    simp only [Bool.and_eq_true, decide_eq_true_eq, all_eq_true, Bool.not_eq_true',
      isEmpty_eq_false_iff, and_assoc, singleton_append, cons.injEq, true_and,
      exists_eq_right']
    rw [← hparts number]
    simp only [Digits]

theorem linuxDisplay_rmatch : (d.length ≤ 16 && linuxDisplay.rmatch d) = localDisplay d := by
  have hcolon : bytes ":" = [58] := by decide
  have hdot : bytes "." = [46] := by decide
  rw [Bool.eq_iff_iff, localDisplay_iff, Bool.and_eq_true, decide_eq_true_eq]
  refine and_congr_right fun _ => ?_
  simp only [rmatch_iff, linuxDisplay, mem_literal_mul,
    mem_mul (p := many _), mem_add, mem_one, mem_many,
    mem_digitClass, hcolon, hdot]
  constructor
  · rintro ⟨_, ⟨a, r, ha, rfl | ⟨b, hb, rfl⟩, rfl⟩, rfl⟩
    · exact .inl ⟨a, ha, by simp⟩
    · exact .inr ⟨a, b, ha, hb, rfl⟩
  · rintro (⟨a, ha, rfl⟩ | ⟨a, b, ha, hb, rfl⟩)
    · exact ⟨a, ⟨a, [], ha, .inl rfl, by simp⟩, rfl⟩
    · exact ⟨_, ⟨a, _, ha, .inr ⟨b, hb, rfl⟩, rfl⟩, rfl⟩

theorem eq_render_of_parseU32 {n : ℕ} (hp : canonical p = true)
    (h : parseU32 p = some n) : n < 2 ^ 32 ∧ p = Decimal.render n := by
  have hrender := canonical_iff.mp hp
  rw [hrender, parseU32_render] at h
  obtain ⟨hlt, h⟩ := Option.ite_none_right_eq_some.mp h
  cases h
  exact ⟨hlt, hrender⟩

theorem splitOnce_eq_some {sep : UInt8} :
    splitOnce l sep = some (p, d) ↔ sep ∉ p ∧ l = p ++ sep :: d := by
  rw [splitOnce, Option.ite_none_right_eq_some, Option.some.injEq, Prod.mk.injEq]
  constructor
  · rintro ⟨hmem, rfl, rfl⟩
    have hjoin := takeWhile_append_dropWhile (p := (· != sep)) (l := l)
    have hnot := head?_dropWhile_not (· != sep) l
    refine ⟨fun h => by simpa using mem_takeWhile_imp h, ?_⟩
    cases hdrop : l.dropWhile (· != sep) with
    | nil =>
      have hall := dropWhile_eq_nil_iff.mp hdrop sep hmem
      simp at hall
    | cons c rest =>
      rw [hdrop] at hjoin hnot
      have hc : c = sep := by simpa using hnot
      rw [hc] at hjoin
      exact hjoin.symm
  · rintro ⟨hp, rfl⟩
    have hpass (c : UInt8) (hc : c ∈ p) : (c != sep) = true := by
      rw [bne_iff_ne]
      rintro rfl
      exact hp hc
    rw [takeWhile_append_of_pos hpass, dropWhile_append_of_pos hpass]
    simp

theorem linuxParts_eq_some {start : List UInt8} :
    (stripStart l start).bind (splitOnce · 58) = some (p, d) ↔
      58 ∉ p ∧ l = start ++ (p ++ 58 :: d) := by
  simp only [Option.bind_eq_some_iff, stripStart_eq_some, splitOnce_eq_some]
  constructor
  · rintro ⟨_, rfl, hp, rfl⟩
    exact ⟨hp, rfl⟩
  · rintro ⟨hp, rfl⟩
    exact ⟨_, rfl, hp, rfl⟩

/-- The bindings of kernel logons: a session number and the logon's identifier. -/
def IsWindowsLogon (s : List UInt8) : Prop :=
  ∃ n luid, 0 < n ∧ n < 2 ^ 32 ∧ luid.length = 16 ∧ (∀ c ∈ luid, isLowerHex c = true) ∧
    luid ≠ bytes "0000000000000000" ∧ s = bytes "windows:" ++ (Decimal.render n ++ 58 :: luid)

/-- The sessions of a Linux user, with a condition on the text of the process number. -/
def IsLinuxSession (process : List UInt8 → Prop) (uid : ℕ) (s : List UInt8) : Prop :=
  ∃ pid display, 58 ∉ pid ∧ process pid ∧ localDisplay display = true ∧
    s = bytes s!"linux:{uid}:" ++ (pid ++ 58 :: display)

section Windows

variable {parse : List UInt8 → Option ℕ} {rest : List UInt8}

theorem hexNumber_eq {luid : List UInt8} (h : luid.length = 16) :
    ((Hex.number luid).any fun n => n < 2 ^ 64 && Hex.padded 16 n == luid) =
      luid.all isLowerHex := by
  rw [Bool.eq_iff_iff, all_eq_true, Option.any_eq_true]
  constructor
  · rintro ⟨n, -, hn⟩ b hb
    rw [Bool.and_eq_true, beq_iff_eq] at hn
    exact Hex.isLower_of_mem_padded (hn.2 ▸ hb)
  · intro hlower
    obtain ⟨n, hn, hlt, hpadded⟩ := Hex.padded_of_isLower hlower
    rw [h] at hlt hpadded
    refine ⟨n, hn, Bool.and_eq_true_iff.mpr ⟨decide_eq_true ?_, beq_iff_eq.mpr hpadded⟩⟩
    exact hlt.trans_eq (by decide)

theorem windowsLogon_iff (h : Reads parse) : ((rest.splitOn 58).length == 2 &&
      (((rest.splitOn 58)[0]?).any fun p => (parse p).any fun id =>
        0 < id && bytes (toString id) == p) &&
      (((rest.splitOn 58)[1]?).any fun p =>
        p.length == 16 && p.all isLowerHex && p != bytes "0000000000000000")) = true ↔
      IsWindowsLogon (bytes "windows:" ++ rest) := by
  simp only [Bool.and_eq_true, beq_iff_eq, bne_iff_ne,
    Option.any_eq_true (p := fun p : List UInt8 => _), h.any_iff (fun id => decide (0 < id)),
    decide_eq_true_eq, all_eq_true]
  constructor
  · rintro ⟨⟨hlength, p, hp, n, hn, hpos, rfl⟩, luid, hluid, ⟨hlen, hlower⟩, hzero⟩
    obtain ⟨x, y, hxy⟩ := length_eq_two.mp hlength
    rw [hxy] at hp hluid
    cases hp
    obtain rfl := Option.some.inj hluid
    exact ⟨n, y, hpos, hn, hlen, hlower, hzero, congrArg _ (eq_of_splitOn_pair hxy)⟩
  · rintro ⟨n, luid, hpos, hn, hlen, hlower, hzero, hrest⟩
    obtain rfl := append_cancel_left hrest
    have hsplit : (Decimal.render n ++ 58 :: luid).splitOn 58 = [Decimal.render n, luid] := by
      refine splitOn_pair (fun hmem => ?_) (fun hmem => ?_)
      · exact absurd (isDigit_of_mem_render hmem) (by decide)
      · exact absurd (hlower _ hmem) (by decide)
    rw [hsplit]
    exact ⟨⟨rfl, _, rfl, n, hn, hpos, rfl⟩, luid, rfl, ⟨hlen, hlower⟩, hzero⟩

theorem validWindowsLogonBinding_eq (s : String) :
    validWindowsLogonBinding s = Store.validWindowsLogonBinding s := by
  simp only [validWindowsLogonBinding, Store.validWindowsLogonBinding]
  cases stripStart (bytes s) (bytes "windows:") with
  | none => simp
  | some rest =>
    simp only [Option.map_some]
    rcases hsplit : rest.splitOn 58 with _ | ⟨x, _ | ⟨y, _ | ⟨z, more⟩⟩⟩
    · simp
    · simp
    · have hnonzero (n : ℕ) : (n != 0) = decide (0 < n) := by
        rw [Bool.eq_iff_iff, bne_iff_ne, decide_eq_true_eq, Nat.pos_iff_ne_zero]
      simp only [hnonzero, length_cons, length_nil, getElem?_cons_zero,
        getElem?_cons_succ, Option.any_some, Nat.reduceAdd, beq_self_eq_true, Bool.and_true]
      by_cases hlen : y.length = 16
      · rw [hexNumber_eq hlen]
        ac_rfl
      · rw [beq_eq_false_iff_ne.mpr hlen]
        simp only [Bool.false_and, Bool.and_false]
    · simp

theorem validWindowsLogonBinding_iff {s : String} : Store.validWindowsLogonBinding s = true ↔
    (bytes s).length ≤ 128 ∧ IsWindowsLogon (bytes s) := by
  simp only [Store.validWindowsLogonBinding]
  cases hstrip : stripStart (bytes s) (bytes "windows:") with
  | none =>
    refine iff_of_false Bool.false_ne_true ?_
    rintro ⟨-, n, luid, -, -, -, -, -, hs⟩
    exact absurd (hstrip.symm.trans (stripStart_eq_some.mpr hs)) (by simp)
  | some rest =>
    have hs := stripStart_eq_some.mp hstrip
    dsimp only
    rw [Bool.and_assoc, Bool.and_assoc, ← Bool.and_assoc ((rest.splitOn 58).length == 2),
      Bool.and_eq_true, windowsLogon_iff reads_parseUint32, decide_eq_true_eq, hs]

end Windows

section ControlPlaneSessions

variable {username sid sessionId instanceId : String} {uid : ℕ}

theorem validSession_linux : validSession "linux" username uid sid sessionId instanceId =
    Store.validSession .linux ⟨username, uid, sid⟩ sessionId instanceId := by
  simp only [validSession, Store.validSession, managedUser_rmatch, instance_rmatch, validAccount,
    Store.validAccount]
  congr 1
  cases (stripStart (bytes sessionId) (bytes s!"linux:{uid}:")).bind (splitOnce · 58) with
  | none => rfl
  | some parts =>
    rw [Option.any_some, ← linuxDisplay_rmatch]
    exact Bool.and_assoc _ _ _

theorem validSession_windows : validSession "windows" username uid sid sessionId instanceId =
    Store.validSession .windows ⟨username, uid, sid⟩ sessionId instanceId := by
  simp only [validSession, Store.validSession, managedUser_rmatch, instance_rmatch, validAccount,
    Store.validAccount, validWindowsLogonBinding_eq]
  congr 1

theorem platform_of_validSession {platform : String}
    (h : validSession platform username uid sid sessionId instanceId = true) :
    platform = "linux" ∨ platform = "windows" := by
  simp only [validSession, Bool.and_eq_true] at h
  have haccount := h.1.1.2
  unfold validAccount at haccount
  split at haccount
  · exact .inl rfl
  · exact .inr rfl
  · cases haccount

theorem linux_session_iff :
    Store.validSession .linux ⟨username, uid, sid⟩ sessionId instanceId = true ↔
      managedName username = true ∧ validInstance instanceId = true ∧ 1000 ≤ uid ∧ sid = "" ∧
        (bytes sessionId).length ≤ 128 ∧
        IsLinuxSession (fun pid => ∃ n, n < 2 ^ 32 ∧ 0 < n ∧ pid = Decimal.render n) uid
          (bytes sessionId) := by
  simp only [Store.validSession, Store.validAccount, Bool.and_eq_true, beq_iff_eq,
    decide_eq_true_eq, Option.any_eq_true (p := fun parts : List UInt8 × List UInt8 => _),
    Prod.exists, linuxParts_eq_some, reads_parseUint32.any_iff (fun id => decide (0 < id))]
  constructor
  · rintro ⟨⟨⟨⟨hname, hinstance⟩, huid, hsid⟩, hlength⟩, pid, display, ⟨hpid, hs⟩, hn, hdisplay⟩
    exact ⟨hname, hinstance, huid, hsid, hlength, pid, display, hpid, hn, hdisplay, hs⟩
  · rintro ⟨hname, hinstance, huid, hsid, hlength, pid, display, hpid, hn, hdisplay, hs⟩
    exact ⟨⟨⟨⟨hname, hinstance⟩, huid, hsid⟩, hlength⟩, pid, display, ⟨hpid, hs⟩, hn, hdisplay⟩

theorem windows_session_iff :
    Store.validSession .windows ⟨username, uid, sid⟩ sessionId instanceId = true ↔
      managedName username = true ∧ validInstance instanceId = true ∧ uid = 0 ∧
        IsAccountSid (bytes sid) ∧ (bytes sessionId).length ≤ 128 ∧
        IsWindowsLogon (bytes sessionId) := by
  simp only [Store.validSession, Store.validAccount, Bool.and_eq_true, beq_iff_eq,
    decide_eq_true_eq, validWindowsAccountSid_iff, validWindowsLogonBinding_iff]
  constructor
  · rintro ⟨⟨⟨⟨hname, hinstance⟩, huid, hsid⟩, hlength⟩, -, hlogon⟩
    exact ⟨hname, hinstance, huid, hsid, hlength, hlogon⟩
  · rintro ⟨hname, hinstance, huid, hsid, hlength, hlogon⟩
    exact ⟨⟨⟨⟨hname, hinstance⟩, huid, hsid⟩, hlength⟩, hlength, hlogon⟩

end ControlPlaneSessions

section GuestSessions

def isSessionByte (b : UInt8) : Bool :=
  isAsciiAlphanumeric b || b == 95 || b == 58 || b == 46 || b == 45

theorem isSessionByte_of_digit (h : isAsciiDigit b = true) : isSessionByte b = true := by
  simp only [isSessionByte, isAsciiAlphanumeric, h, Bool.true_or]

theorem isSessionByte_of_lowerHex (h : isLowerHex b = true) : isSessionByte b = true := by
  rcases Bool.or_eq_true_iff.mp h with h | h
  · exact isSessionByte_of_digit h
  · rw [Bool.and_eq_true, decide_eq_true_eq, decide_eq_true_eq] at h
    have hupper : b ≤ 122 := UInt8.le_trans h.2 (by decide)
    simp only [isSessionByte, isAsciiAlphanumeric, h.1, hupper, decide_true, Bool.and_true,
      Bool.or_true, Bool.true_or]

theorem forall_isSessionByte_cons (hb : isSessionByte b = true)
    (hl : ∀ c ∈ l, isSessionByte c = true) : ∀ c ∈ b :: l, isSessionByte c = true :=
  forall_mem_cons.mpr ⟨hb, hl⟩

theorem isSessionByte_of_display (h : localDisplay d = true) : ∀ c ∈ d, isSessionByte c = true := by
  have hdigits {a : List UInt8} (ha : Digits a) : ∀ c ∈ a, isSessionByte c = true :=
    fun c hc => isSessionByte_of_digit (ha.2 c hc)
  rcases (localDisplay_iff.mp h).2 with ⟨a, ha, rfl⟩ | ⟨a, b, ha, hb, rfl⟩
  · exact forall_isSessionByte_cons rfl (hdigits ha)
  · exact forall_isSessionByte_cons rfl
      (forall_mem_append.mpr ⟨hdigits ha, forall_isSessionByte_cons rfl (hdigits hb)⟩)

theorem bytes_linuxStart (uid : ℕ) :
    bytes s!"linux:{uid}:" = bytes "linux:" ++ (Decimal.render uid ++ [58]) := by
  have hcolon : bytes ":" = [58] := by decide
  rw [show s!"linux:{uid}:" = "linux:" ++ toString uid ++ ":" from rfl, bytes_append, bytes_append,
    bytes_toString, hcolon, append_assoc]

theorem isSessionByte_linuxStart (uid : ℕ) :
    ∀ c ∈ bytes s!"linux:{uid}:", isSessionByte c = true := by
  rw [bytes_linuxStart]
  refine forall_mem_append.mpr ⟨all_eq_true.mp (by decide), ?_⟩
  refine forall_mem_append.mpr ⟨?_, all_eq_true.mp (by decide)⟩
  exact fun c hc => isSessionByte_of_digit (isDigit_of_mem_render hc)

theorem isSessionByte_of_logon (h : IsWindowsLogon l) : ∀ c ∈ l, isSessionByte c = true := by
  obtain ⟨n, luid, -, -, -, hlower, -, rfl⟩ := h
  refine forall_mem_append.mpr
    ⟨all_eq_true.mp (by decide), forall_mem_append.mpr ⟨?_, ?_⟩⟩
  · exact fun c hc => isSessionByte_of_digit (isDigit_of_mem_render hc)
  · exact forall_isSessionByte_cons rfl fun c hc => isSessionByte_of_lowerHex (hlower c hc)

theorem linuxStart_ne_windows {uid : ℕ} {q : List UInt8} :
    bytes s!"linux:{uid}:" ++ p ≠ bytes "windows:" ++ q := by
  intro h
  have hhead : some (108 : UInt8) = some 119 := congrArg head? h
  exact absurd hhead (by decide)

theorem ne_empty_of_bytes {text : String} (h : bytes text ≠ []) : text ≠ "" := by
  rintro rfl
  exact h rfl

variable {key : SessionKey} {b : UInt8}

theorem validOsIdentity_iff : validOsIdentity key = true ↔
    (key.uid = 0 ∧ IsAccountSid (bytes key.sid) ∧ IsWindowsLogon (bytes key.sessionId)) ∨
      (1000 ≤ key.uid ∧ key.sid = "" ∧
        IsLinuxSession (fun pid => ∃ n, parseU32 pid = some n ∧ 0 < n) key.uid
          (bytes key.sessionId)) := by
  simp only [validOsIdentity]
  cases hstrip : stripStart (bytes key.sessionId) (bytes "windows:") with
  | some rest =>
    have hs := stripStart_eq_some.mp hstrip
    have hlinux : ¬ IsLinuxSession (fun pid => ∃ n, parseU32 pid = some n ∧ 0 < n) key.uid
        (bytes key.sessionId) := by
      rintro ⟨pid, display, -, -, -, hlinux⟩
      exact linuxStart_ne_windows (hlinux.symm.trans hs)
    have hsid : ((key.sid != "S-1-5-18") = true ∧ validAccountSid key.sid = true) ↔
        IsAccountSid (bytes key.sid) := by
      rw [bne_iff_ne]
      constructor
      · rintro ⟨hne, hvalid⟩
        exact (validAccountSid_iff hne).mp hvalid
      · intro h
        have hne : key.sid ≠ "S-1-5-18" := by
          rintro heq
          rw [← validWindowsAccountSid_iff, heq] at h
          exact absurd h (by decide)
        exact ⟨hne, (validAccountSid_iff hne).mpr h⟩
    rw [or_iff_left fun h => hlinux h.2.2, hs, ← windowsLogon_iff reads_parseU32, ← hsid]
    simp only [Bool.and_eq_true, beq_iff_eq, and_assoc]
  | none =>
    have hwindows : ¬ IsWindowsLogon (bytes key.sessionId) := by
      rintro ⟨n, luid, -, -, -, -, -, hs⟩
      exact absurd (hstrip.symm.trans (stripStart_eq_some.mpr hs)) (by simp)
    rw [or_iff_right fun h => hwindows h.2.2]
    cases hparts : (stripStart (bytes key.sessionId) (bytes s!"linux:{key.uid}:")).bind
        (splitOnce · 58) with
    | none =>
      refine iff_of_false Bool.false_ne_true ?_
      rintro ⟨-, -, pid, display, hpid, -, -, hs⟩
      exact absurd (hparts.symm.trans (linuxParts_eq_some.mpr ⟨hpid, hs⟩)) (by simp)
    | some parts =>
      obtain ⟨pid, display⟩ := parts
      obtain ⟨hpid, hs⟩ := linuxParts_eq_some.mp hparts
      simp only [Bool.and_eq_true, beq_iff_eq, decide_eq_true_eq, Option.any_eq_true]
      constructor
      · rintro ⟨⟨⟨hsid, huid⟩, hprocess⟩, hdisplay⟩
        exact ⟨huid, hsid, pid, display, hpid, hprocess, hdisplay, hs⟩
      · rintro ⟨huid, hsid, pid', display', hpid', hprocess, hdisplay, hs'⟩
        cases (Option.some.inj (hparts.symm.trans (linuxParts_eq_some.mpr ⟨hpid', hs'⟩)))
        exact ⟨⟨⟨hsid, huid⟩, hprocess⟩, hdisplay⟩

theorem validKey_iff : validKey key = true ↔ managedName key.username = true ∧
    validInstance key.instanceId = true ∧ (bytes key.sessionId).length ≤ 128 ∧
    ((key.uid = 0 ∧ IsAccountSid (bytes key.sid) ∧ IsWindowsLogon (bytes key.sessionId)) ∨
      (1000 ≤ key.uid ∧ key.sid = "" ∧ IsLinuxSession (fun pid =>
        (∃ n, parseU32 pid = some n ∧ 0 < n) ∧ ∀ c ∈ pid, isSessionByte c = true) key.uid
          (bytes key.sessionId))) := by
  have hkey : validKey key = true ↔ managedName key.username = true ∧
      validInstance key.instanceId = true ∧ (bytes key.sessionId).length ≤ 128 ∧
      validOsIdentity key = true ∧ key.sessionId ≠ "" ∧
      ∀ c ∈ bytes key.sessionId, isSessionByte c = true := by
    simp only [validKey, validInstance, isSessionByte, Bool.and_eq_true, bne_iff_ne, beq_iff_eq,
      decide_eq_true_eq, all_eq_true]
    tauto
  rw [hkey, validOsIdentity_iff]
  refine and_congr_right fun _ => and_congr_right fun _ => and_congr_right fun _ => ?_
  constructor
  · rintro ⟨hos, -, hbytes⟩
    refine hos.imp_right ?_
    rintro ⟨huid, hsid, pid, display, hpid, hprocess, hdisplay, hs⟩
    rw [hs] at hbytes
    exact ⟨huid, hsid, pid, display, hpid, ⟨hprocess, fun c hc => hbytes c (by simp [hc])⟩,
      hdisplay, hs⟩
  · rintro (hwindows | ⟨huid, hsid, pid, display, hpid, ⟨hprocess, hbytes⟩, hdisplay, hs⟩)
    · refine ⟨.inl hwindows, ne_empty_of_bytes ?_, isSessionByte_of_logon hwindows.2.2⟩
      obtain ⟨n, luid, -, -, -, -, -, hs⟩ := hwindows.2.2
      rw [hs]
      exact append_ne_nil_of_left_ne_nil (by decide) _
    · refine ⟨.inr ⟨huid, hsid, pid, display, hpid, hprocess, hdisplay, hs⟩,
        ne_empty_of_bytes ?_, ?_⟩
      · rw [hs]
        exact append_ne_nil_of_right_ne_nil _
          (append_ne_nil_of_right_ne_nil _ (cons_ne_nil _ _))
      · rw [hs]
        exact forall_mem_append.mpr ⟨isSessionByte_linuxStart key.uid,
          forall_mem_append.mpr ⟨hbytes,
            forall_isSessionByte_cons rfl (isSessionByte_of_display hdisplay)⟩⟩

end GuestSessions

end Sessions

section Agreement

def namedPlatform (sessionId : String) : String :=
  if startsWith sessionId "windows:" then "windows" else "linux"

def canonicalProcess (uid : ℕ) (sessionId : String) : Bool :=
  ((stripStart (bytes sessionId) (bytes s!"linux:{uid}:")).bind (splitOnce · 58)).all fun parts =>
    canonical parts.1

variable {platform username sessionId instanceId : String} {uid : ℕ}

theorem namedPlatform_windows (h : IsWindowsLogon (bytes sessionId)) :
    namedPlatform sessionId = "windows" := by
  obtain ⟨n, luid, -, -, -, -, -, hs⟩ := h
  refine if_pos ?_
  rw [startsWith, hs, isPrefixOf_iff_prefix]
  exact prefix_append _ _

theorem namedPlatform_linux {process : List UInt8 → Prop}
    (h : IsLinuxSession process uid (bytes sessionId)) : namedPlatform sessionId = "linux" := by
  obtain ⟨pid, display, -, -, -, hs⟩ := h
  refine if_neg ?_
  rw [startsWith, hs, isPrefixOf_iff_prefix]
  rintro ⟨t, ht⟩
  exact linuxStart_ne_windows ht.symm

theorem validSession_iff : validSession platform username uid sid sessionId instanceId = true ↔
    validKey ⟨username, uid, sid, sessionId, instanceId⟩ = true ∧
      platform = namedPlatform sessionId ∧ canonicalProcess uid sessionId = true := by
  rw [validKey_iff]
  constructor
  · intro h
    rcases platform_of_validSession h with rfl | rfl
    · rw [validSession_linux, linux_session_iff] at h
      obtain ⟨hname, hinstance, huid, hsid, hlength, pid, display, hpid, ⟨n, hn, hpos, hrender⟩,
        hdisplay, hs⟩ := h
      have hparse : parseU32 pid = some n := by rw [hrender, reads_parseU32.render n hn]
      have hbytes (c : UInt8) (hc : c ∈ pid) : isSessionByte c = true :=
        isSessionByte_of_digit (isDigit_of_mem_render (n := n) (hrender ▸ hc))
      have hsession : IsLinuxSession (fun pid => (∃ n, parseU32 pid = some n ∧ 0 < n) ∧
          ∀ c ∈ pid, isSessionByte c = true) uid (bytes sessionId) :=
        ⟨pid, display, hpid, ⟨⟨n, hparse, hpos⟩, hbytes⟩, hdisplay, hs⟩
      refine ⟨⟨hname, hinstance, hlength, .inr ⟨huid, hsid, hsession⟩⟩,
        (namedPlatform_linux hsession).symm, ?_⟩
      rw [canonicalProcess, linuxParts_eq_some.mpr ⟨hpid, hs⟩, Option.all_some, hrender]
      exact canonical_render n
    · rw [validSession_windows, windows_session_iff] at h
      obtain ⟨hname, hinstance, huid, hsid, hlength, hlogon⟩ := h
      refine ⟨⟨hname, hinstance, hlength, .inl ⟨huid, hsid, hlogon⟩⟩,
        (namedPlatform_windows hlogon).symm, ?_⟩
      rw [canonicalProcess, Option.all_eq_true]
      rintro ⟨pid, display⟩ hparts
      obtain ⟨n, luid, -, -, -, -, -, hs⟩ := hlogon
      exact absurd ((linuxParts_eq_some.mp hparts).2.symm.trans hs) linuxStart_ne_windows
  · rintro ⟨⟨hname, hinstance, hlength, hos⟩, rfl, hprocess⟩
    rcases hos with ⟨huid, hsid, hlogon⟩ | ⟨huid, hsid, hsession⟩
    · rw [namedPlatform_windows hlogon, validSession_windows, windows_session_iff]
      exact ⟨hname, hinstance, huid, hsid, hlength, hlogon⟩
    · rw [namedPlatform_linux hsession, validSession_linux, linux_session_iff]
      obtain ⟨pid, display, hpid, ⟨⟨n, hparse, hpos⟩, -⟩, hdisplay, hs⟩ := hsession
      rw [canonicalProcess, linuxParts_eq_some.mpr ⟨hpid, hs⟩, Option.all_some] at hprocess
      obtain ⟨hlt, hrender⟩ := eq_render_of_parseU32 hprocess hparse
      exact ⟨hname, hinstance, huid, hsid, hlength, pid, display, hpid, ⟨n, hlt, hpos, hrender⟩,
        hdisplay, hs⟩

/-- All the checks take the same account texts, and the same sessions for the platform that they
name, up to the leading zeros of a process number. -/
theorem identity_validators_agree :
    (∀ account : AccountIdentity, account.validSid = validWindowsAccountSid account.sid) ∧
    (∀ sid, vcwValidSid sid = validWindowsAccountSid sid) ∧
    (∀ sid, sid ≠ "S-1-5-18" → validAccountSid sid = validWindowsAccountSid sid) ∧
    ∀ os username uid sid sessionId instanceId,
      validSession os username uid sid sessionId instanceId = true ↔
        validKey ⟨username, uid, sid, sessionId, instanceId⟩ = true ∧
          os = namedPlatform sessionId ∧ canonicalProcess uid sessionId = true := by
  refine ⟨fun account => ?_, fun sid => ?_, fun sid h => ?_, fun _ _ _ _ _ _ => validSession_iff⟩
  · rw [Bool.eq_iff_iff, validSid_iff, validWindowsAccountSid_iff]
  · rw [Bool.eq_iff_iff, vcwValidSid_iff, validWindowsAccountSid_iff]
  · rw [Bool.eq_iff_iff, validAccountSid_iff h, validWindowsAccountSid_iff]

def sampleInstance : String :=
  "0123456789abcdef0123456789abcdef0123456789abcdef0123456789abcdef"

def linuxKey : SessionKey :=
  ⟨"vca0123456789ab", 1000, "", "linux:1000:42::10.0", sampleInstance⟩

def windowsKey : SessionKey :=
  ⟨"vcw0123456789ab", 0, "S-1-5-21-1-2-3-1001", "windows:3:000000000000abcd", sampleInstance⟩

/-- Sessions of both platforms pass every check. -/
theorem identity_validators_agree_sessions :
    (validAccountSid windowsKey.sid = true ∧ vcwValidSid windowsKey.sid = true) ∧
      validSession "linux" linuxKey.username linuxKey.uid linuxKey.sid linuxKey.sessionId
        linuxKey.instanceId = true ∧
      validSession "windows" windowsKey.username windowsKey.uid windowsKey.sid windowsKey.sessionId
        windowsKey.instanceId = true := by
  obtain ⟨-, hsql, hsession, hkey⟩ := identity_validators_agree
  have hgo : validWindowsAccountSid windowsKey.sid = true := by decide
  refine ⟨⟨?_, ?_⟩, (hkey ..).mpr ⟨?_, ?_, ?_⟩, (hkey ..).mpr ⟨?_, ?_, ?_⟩⟩
  · rw [hsession _ (by decide), hgo]
  · rw [hsql, hgo]
  · decide
  · decide
  · decide
  · decide
  · decide
  · decide

/-- The Guest's check has no platform: it takes a Linux session that the control plane refuses for
a Windows desktop. -/
theorem platform_is_not_checked :
    validKey linuxKey = true ∧ canonicalProcess linuxKey.uid linuxKey.sessionId = true ∧
      validSession "windows" linuxKey.username linuxKey.uid linuxKey.sid linuxKey.sessionId
        linuxKey.instanceId = false := by
  refine ⟨by decide, by decide, ?_⟩
  rw [Bool.eq_false_iff]
  intro h
  exact absurd (validSession_iff.mp h).2.1 (by decide)

end Agreement

end VcWorkspace.Protocol.SessionIdentity
