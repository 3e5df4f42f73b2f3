import Mathlib.Algebra.Group.Int.Defs
import Mathlib.Data.List.FinRange
import Mathlib.Data.List.Perm.Basic

/-! # Fingerprints of request bodies

The fingerprint of a request is taken of its body in a canonical form: objects
become maps with case-sensitive keys, and the order of their members is lost.
The handler decodes the body itself into a struct. It matches keys to fields
regardless of their case, one member after another, and a later member decodes
into what an earlier one has left.
-/

namespace VcWorkspace.Server.Fingerprint

open List Function

/-- A JSON value as it is written: members in order, keys and texts without escapes, numbers as
literals. -/
inductive Json
  | null
  | bool (b : Bool)
  | number (literal : String)
  | string (s : String)
  | array (values : List Json)
  | object (members : List (String × Json))

section Canonical

/-- Put a member into a map, in the place of an earlier one of its key. -/
def insertMember (m : String × Json) : List (String × Json) → List (String × Json)
  | [] => [m]
  | x :: rest =>
    if m.1 = x.1 then m :: rest
    else if m.1.toList < x.1.toList then m :: x :: rest
    else x :: insertMember m rest

def sortMembers (ms : List (String × Json)) : List (String × Json) :=
  ms.foldl (fun acc m => insertMember m acc) []

mutual

/-- What decoding into an untyped value and encoding it again leaves. -/
def canonical : Json → Json
  | .array vs => .array (canonicalValues vs)
  | .object ms => .object (sortMembers (canonicalMembers ms))
  | .null => .null
  | .bool b => .bool b
  | .number l => .number l
  | .string s => .string s

def canonicalValues : List Json → List Json
  | [] => []
  | v :: vs => canonical v :: canonicalValues vs

def canonicalMembers : List (String × Json) → List (String × Json)
  | [] => []
  | (k, v) :: ms => (k, canonical v) :: canonicalMembers ms

end

end Canonical

section Decoding

inductive GoType
  | string
  | int
  | bool
  | pointer (t : GoType)
  | struct (n : ℕ) (names : Fin n → String) (types : Fin n → GoType)

namespace GoType

def Value : GoType → Type
  | string => String
  | int => ℤ
  | bool => Bool
  | pointer t => Option t.Value
  | struct _ _ types => ∀ i, (types i).Value

def zero : (t : GoType) → t.Value
  | string => ""
  | int => (0 : ℤ)
  | bool => false
  | pointer _ => none
  | struct _ _ types => fun i => (types i).zero

def record (fields : List (String × GoType)) : GoType :=
  .struct fields.length (fun i => fields[i].1) (fun i => fields[i].2)

end GoType

/-- The folding of the characters that fold to a letter of a field name. -/
def foldRune (c : Char) : Char :=
  if 'a' ≤ c ∧ c ≤ 'z' then Char.ofNat (c.toNat - 32)
  else if c = '\u017f' then 'S'
  else if c = '\u212a' then 'K'
  else c

def foldName (s : String) : List Char := s.toList.map foldRune

/-- The field of a key: the field of this name, or one that differs in case. -/
def findField {n : ℕ} (names : Fin n → String) (key : String) : Option (Fin n) :=
  ((finRange n).find? fun i => names i == key).or
    ((finRange n).find? fun i => foldName (names i) == foldName key)

def parseDigits (cs : List Char) : Option ℕ :=
  if cs.isEmpty || !cs.all Char.isDigit then none
  else some (cs.foldl (fun n c => 10 * n + (c.toNat - 48)) 0)

/-- A number literal as a 64-bit integer. -/
def parseInt (literal : String) : Option ℤ :=
  let value : Option ℤ := match literal.toList with
    | '-' :: cs => (parseDigits cs).map fun n => -(n : ℤ)
    | cs => (parseDigits cs).map fun n => (n : ℤ)
  value.filter fun z => -2 ^ 63 ≤ z && z < 2 ^ 63

/-- Decode one value into what is there; null leaves everything but a pointer as it is. -/
def decode : (t : GoType) → t.Value → Json → Option t.Value
  | .string, cur, v => match v with
    | .null => some cur
    | .string s => some s
    | _ => none
  | .int, cur, v => match v with
    | .null => some cur
    | .number l => parseInt l
    | _ => none
  | .bool, cur, v => match v with
    | .null => some cur
    | .bool b => some b
    | _ => none
  | .pointer t, cur, v => match v with
    | .null => some none
    | v => (decode t (Option.getD cur t.zero) v).map some
  | .struct _ names types, cur, v => match v with
    | .null => some cur
    | .object ms => ms.foldl (fun acc m => acc.bind fun fields =>
        (findField names m.1).bind fun i =>
          (decode (types i) (fields i) m.2).map (update fields i)) (some cur)
    | _ => none

end Decoding

section Requests

/-- The texts of bodies, canonical values and fingerprints, different ones for different values;
`none` is the empty text. -/
structure Encoding (β τ φ : Type) where
  length : β → ℕ
  trimSpace : β → β
  isEmpty : β → Bool
  parse : β → Option Json
  marshal : Json → τ
  digest : Option τ → φ
  marshal_canonical : ∀ {b₁ b₂ v₁ v₂}, parse b₁ = some v₁ → parse b₂ = some v₂ →
    marshal (canonical v₁) = marshal (canonical v₂) → canonical v₁ = canonical v₂
  digest_injective : Injective digest

variable {β τ φ : Type} (e : Encoding β τ φ)

def maxBody : ℕ := 1024 * 1024

/-- The fingerprint that `prepareJobRequest` computes, unless it refuses the body. -/
def fingerprint (body : β) : Option φ :=
  if maxBody < e.length body then none
  else if e.isEmpty (e.trimSpace body) then some (e.digest none)
  else (e.parse (e.trimSpace body)).map fun v => e.digest (some (e.marshal (canonical v)))

def decodeJson (t : GoType) (body : β) : Option t.Value := (e.parse body).bind (decode t t.zero)

/-- What the handler would decode from the canonical form of a body. -/
def decodeCanonical (t : GoType) (body : β) : Option t.Value :=
  if e.isEmpty (e.trimSpace body) then none
  else (e.parse (e.trimSpace body)).bind fun v => decode t t.zero (canonical v)

def Faithful (t : GoType) (body : β) : Prop := decodeJson e t body = decodeCanonical e t body

end Requests

section Endpoints

inductive Endpoint
  | createDesktopInstance
  | startImageBuild
  deriving DecidableEq, Repr

def desktopCloneRequest : GoType := .record
  [("name", .string), ("source_vmid", .int), ("target_node", .string), ("storage", .string),
    ("full", .bool), ("gpu_profile_id", .string), ("pci_resource_mapping", .string),
    ("mdev_type", .string), ("validation_image_profile_id", .string), ("source_os_family", .string),
    ("pve_principal", .string)]

def imageProfileUpdateRequest : GoType := .record
  [("display_name", .pointer .string), ("enabled", .pointer .bool),
    ("source_node", .pointer .string), ("source_iso", .pointer .string),
    ("source_iso_checksum", .pointer .string), ("driver_iso", .pointer .string),
    ("driver_iso_checksum", .pointer .string), ("template_vmid", .pointer .int),
    ("mirror_url", .pointer .string), ("security_mirror_url", .pointer .string),
    ("storage_pool", .pointer .string), ("bridge", .pointer .string),
    ("windows_image_name", .pointer .string), ("default_cores", .pointer .int),
    ("default_memory_mb", .pointer .int), ("default_disk_gb", .pointer .int),
    ("firmware", .pointer .string), ("tpm_version", .pointer .string),
    ("default_gpu_profile_id", .pointer .string), ("build_status", .pointer .string),
    ("status_detail", .pointer .string)]

def imageBuildInput : GoType := .record
  [("profile", .pointer imageProfileUpdateRequest), ("builder_password", .string),
    ("windows_product_key", .string)]

def Endpoint.request : Endpoint → GoType
  | .createDesktopInstance => desktopCloneRequest
  | .startImageBuild => imageBuildInput

end Endpoints

section Decoded

variable {n : ℕ} {names : Fin n → String} {types : Fin n → GoType} {ms ms' : List (String × Json)}
  {v w : Json} {m : String × Json}

inductive Plain : Json → Prop
  | null : Plain .null
  | bool (b : Bool) : Plain (.bool b)
  | number (l : String) : Plain (.number l)
  | string (s : String) : Plain (.string s)
  | array {vs : List Json} (h : ∀ v ∈ vs, Plain v) : Plain (.array vs)
  | object {ms : List (String × Json)} (hk : (ms.map fun m => foldName m.1).Nodup)
      (h : ∀ m ∈ ms, Plain m.2) : Plain (.object ms)

theorem insertMember_perm (h : m.1 ∉ ms.map Prod.fst) : (insertMember m ms).Perm (m :: ms) := by
  induction ms with
  | nil => exact .refl _
  | cons x rest ih =>
    simp only [map_cons, mem_cons, not_or] at h
    simp only [insertMember, if_neg h.1]
    split
    · exact .refl _
    · exact ((ih h.2).cons x).trans (.swap m x rest)

theorem foldl_insertMember_perm {acc : List (String × Json)}
    (h : ((acc ++ ms).map Prod.fst).Nodup) :
    (ms.foldl (fun acc m => insertMember m acc) acc).Perm (acc ++ ms) := by
  induction ms generalizing acc with
  | nil => simp
  | cons m rest ih =>
    have hperm : (acc ++ m :: rest).Perm ((m :: acc) ++ rest) := perm_middle
    have hnew : m.1 ∉ acc.map Prod.fst := by
      have hn := (hperm.map Prod.fst).nodup_iff.mp h
      simp only [cons_append, map_cons, nodup_cons, map_append,
        mem_append, not_or] at hn
      exact hn.1.1
    have hinsert := (insertMember_perm hnew).append_right rest
    refine (ih ?_).trans (hinsert.trans hperm.symm)
    exact ((hinsert.trans hperm.symm).map Prod.fst).nodup_iff.mpr h

theorem sortMembers_perm (h : (ms.map Prod.fst).Nodup) : (sortMembers ms).Perm ms := by
  have hperm : (ms.foldl (fun acc m => insertMember m acc) []).Perm ([] ++ ms) :=
    foldl_insertMember_perm (by simpa using h)
  exact hperm

theorem canonicalMembers_eq_map : canonicalMembers ms = ms.map fun m => (m.1, canonical m.2) := by
  induction ms with
  | nil => rfl
  | cons m rest ih => rw [canonicalMembers, ih, map_cons]

theorem foldName_of_findField {key : String} {i : Fin n} (h : findField names key = some i) :
    foldName (names i) = foldName key := by
  rcases Option.or_eq_some_iff.mp h with h | ⟨-, h⟩
  · have hname : names i = key := by simpa using find?_some h
    rw [hname]
  · simpa using find?_some h

def decodeMember (names : Fin n → String) (types : Fin n → GoType)
    (acc : Option (∀ i, (types i).Value)) (m : String × Json) : Option (∀ i, (types i).Value) :=
  acc.bind fun fields => (findField names m.1).bind fun i =>
    (decode (types i) (fields i) m.2).map (update fields i)

theorem decodeMember_comm {y : String × Json} (h : foldName x.1 ≠ foldName y.1)
    (acc : Option (∀ i, (types i).Value)) :
    decodeMember names types (decodeMember names types acc x) y =
      decodeMember names types (decodeMember names types acc y) x := by
  cases acc with
  | none => rfl
  | some fields =>
    cases hx : findField names x.1 with
    | none =>
      cases hy : findField names y.1 with
      | none => simp [decodeMember, hy]
      | some j => cases hd : decode (types j) (fields j) y.2 <;> simp [decodeMember, hx]
    | some i =>
      cases hy : findField names y.1 with
      | none => cases hd : decode (types i) (fields i) x.2 <;> simp [decodeMember, hx, hy]
      | some j =>
        have hij : i ≠ j := by
          rintro rfl
          exact h ((foldName_of_findField hx).symm.trans (foldName_of_findField hy))
        cases hdx : decode (types i) (fields i) x.2 with
        | none =>
          cases hdy : decode (types j) (fields j) y.2 with
          | none => simp [decodeMember, hx, hy, hdx, hdy]
          | some b => simp [decodeMember, hx, hy, hdx, hdy, update_of_ne hij]
        | some a =>
          cases hdy : decode (types j) (fields j) y.2 with
          | none => simp [decodeMember, hx, hy, hdy, update_of_ne hij.symm]
          | some b =>
            simp [decodeMember, hx, hy, hdx, hdy, update_of_ne hij,
              update_of_ne hij.symm, update_comm hij]

theorem foldl_decodeMember_perm (hk : (ms.map fun m => foldName m.1).Nodup) (hp : ms'.Perm ms)
    (acc : Option (∀ i, (types i).Value)) :
    ms'.foldl (decodeMember names types) acc = ms.foldl (decodeMember names types) acc := by
  refine hp.foldl_eq' (fun x hx y hy z => ?_) acc
  rcases eq_or_ne x y with rfl | hne
  · rfl
  · refine decodeMember_comm (fun hfold => hne ?_) z
    exact inj_on_of_nodup_map hk (hp.subset hx) (hp.subset hy) hfold

theorem decode_canonical (t : GoType) (hv : Plain v) (cur : t.Value) :
    decode t cur (canonical v) = decode t cur v := by
  induction t generalizing v with
  | string | int | bool =>
    cases hv with
    | null | bool | number | string => rw [canonical]
    | array | object =>
      rfl
  | pointer t ih =>
    cases hv with
    | null | bool | number | string => rfl
    | array h => exact congrArg (Option.map some) (ih (.array h) _)
    | object hk h => exact congrArg (Option.map some) (ih (.object hk h) _)
  | struct n names types ih =>
    cases hv with
    | object hk h =>
      rename_i ms
      have hkeys : ((canonicalMembers ms).map fun m => foldName m.1) =
          ms.map fun m => foldName m.1 := by
        simp [canonicalMembers_eq_map]
      have hnodup : ((canonicalMembers ms).map Prod.fst).Nodup := by
        refine Nodup.of_map foldName ?_
        simpa [comp_def] using hkeys ▸ hk
      have hsorted :
          (sortMembers (canonicalMembers ms)).foldl (decodeMember names types) (some cur) =
            (canonicalMembers ms).foldl (decodeMember names types) (some cur) :=
        foldl_decodeMember_perm (hkeys ▸ hk) (sortMembers_perm hnodup) _
      have hmembers : (canonicalMembers ms).foldl (decodeMember names types) (some cur) =
          ms.foldl (decodeMember names types) (some cur) := by
        rw [canonicalMembers_eq_map, foldl_map]
        refine foldl_ext _ _ _ fun acc m hm => ?_
        simp only [decodeMember, ih _ (h m hm)]
      exact hsorted.trans hmembers
    | null | bool | number | string => rw [canonical]
    | array =>
      rfl

end Decoded

section Order

/-- The same value with the members of its objects in another order, at any depth. -/
inductive Reordered : Json → Json → Prop
  | refl (v : Json) : Reordered v v
  | trans {u v w : Json} (h : Reordered u v) (h' : Reordered v w) : Reordered u w
  | value {before after : List Json} {v w : Json} (h : Reordered v w) :
      Reordered (.array (before ++ v :: after)) (.array (before ++ w :: after))
  | member {before after : List (String × Json)} {key : String} {v w : Json} (h : Reordered v w) :
      Reordered (.object (before ++ (key, v) :: after)) (.object (before ++ (key, w) :: after))
  | members {ms ns : List (String × Json)} (hk : (ms.map Prod.fst).Nodup) (h : ms.Perm ns) :
      Reordered (.object ms) (.object ns)

variable {m n : String × Json} {ms ns : List (String × Json)} {v w : Json}

theorem Reordered.symm (h : Reordered v w) : Reordered w v := by
  induction h with
  | refl v => exact .refl v
  | trans _ _ ih ih' => exact .trans ih' ih
  | value _ ih => exact .value ih
  | member _ ih => exact .member ih
  | members hk hp => exact .members ((hp.map _).nodup_iff.mp hk) hp.symm

theorem Reordered.map {α : Type} {f : List α → Json} {g : α → α} {l : List α}
    (h : ∀ a ∈ l, ∀ before after, Reordered (f (before ++ a :: after)) (f (before ++ g a :: after)))
    (before : List α) : Reordered (f (before ++ l)) (f (before ++ l.map g)) := by
  induction l generalizing before with
  | nil => exact .refl _
  | cons a l ih =>
    refine .trans (h a mem_cons_self before l) ?_
    simpa using ih (fun b hb => h b (mem_cons_of_mem a hb)) (before ++ [g a])

theorem insertMember_comm (h : m.1 ≠ n.1) (acc : List (String × Json)) :
    insertMember m (insertMember n acc) = insertMember n (insertMember m acc) := by
  have hlist : m.1.toList ≠ n.1.toList := fun he => h (String.toList_inj.mp he)
  induction acc with
  | nil => grind [insertMember]
  | cons x rest ih => grind [insertMember]

theorem canonicalValues_eq (vs : List Json) : canonicalValues vs = vs.map canonical := by
  induction vs with
  | nil => rfl
  | cons v vs ih => rw [canonicalValues, ih, map_cons]

theorem sortMembers_eq_of_perm (hk : (ms.map Prod.fst).Nodup) (h : ms.Perm ns) :
    sortMembers ms = sortMembers ns := by
  refine h.foldl_eq' (fun x hx y hy acc => ?_) []
  by_cases hxy : x.1 = y.1
  · rw [inj_on_of_nodup_map hk hx hy hxy]
  · exact insertMember_comm (Ne.symm hxy) acc

theorem Reordered.canonical_eq (h : Reordered v w) : canonical v = canonical w := by
  induction h with
  | refl => rfl
  | trans _ _ ih ih' => exact ih.trans ih'
  | value _ ih => simp [canonical, canonicalValues_eq, ih]
  | member _ ih => simp [canonical, canonicalMembers_eq_map, ih]
  | members hk hp =>
    simp only [canonical, canonicalMembers_eq_map]
    rw [sortMembers_eq_of_perm (by simpa [map_map, comp_def] using hk) (hp.map _)]

theorem Plain.reordered (h : Plain v) : Reordered v (canonical v) := by
  induction h with
  | null | bool | number | string =>
    rw [canonical]
    exact .refl _
  | array _ ih =>
    rw [canonical, canonicalValues_eq]
    exact .map (fun v hv _ _ => .value (ih v hv)) []
  | @object ms hk _ ih =>
    have hkeys : ((canonicalMembers ms).map Prod.fst).Nodup := by
      refine .of_map foldName ?_
      simpa [canonicalMembers_eq_map, comp_def] using hk
    have hvalues : Reordered (.object ms) (.object (canonicalMembers ms)) := by
      rw [canonicalMembers_eq_map]
      exact .map (fun m hm _ _ => .member (ih m hm)) []
    rw [canonical]
    exact hvalues.trans (.members hkeys (sortMembers_perm hkeys).symm)

end Order

section Soundness

variable {β τ φ : Type} {e : Encoding β τ φ} {b b₁ b₂ : β} {f : φ} {v w : Json}

/-- A body that reads the same without the blanks around it, and is plain. -/
structure Clean (e : Encoding β τ φ) (b : β) : Prop where
  trim : e.parse (e.trimSpace b) = e.parse b
  empty : e.isEmpty (e.trimSpace b) = true → e.parse b = none
  plain : ∀ v, e.parse b = some v → Plain v

theorem Clean.faithful (hb : Clean e b) (t : GoType) : Faithful e t b := by
  unfold Faithful decodeCanonical decodeJson
  split
  next hempty => rw [hb.empty hempty, Option.bind_none]
  next =>
    rw [hb.trim]
    exact Option.bind_congr fun v hv => (decode_canonical t (hb.plain v hv) t.zero).symm

theorem fingerprint_eq_some (h : fingerprint e b = some f) :
    (e.isEmpty (e.trimSpace b) = true ∧ f = e.digest none) ∨
      e.isEmpty (e.trimSpace b) = false ∧ ∃ v, e.parse (e.trimSpace b) = some v ∧
        f = e.digest (some (e.marshal (canonical v))) := by
  unfold fingerprint at h
  split at h
  · cases h
  split at h
  next hempty => exact .inl ⟨hempty, (Option.some.inj h).symm⟩
  next hempty =>
    obtain ⟨v, hv, rfl⟩ := Option.map_eq_some_iff.mp h
    exact .inr ⟨Bool.eq_false_of_not_eq_true hempty, v, hv, rfl⟩

/-- The fingerprint says what the canonical form decodes to. -/
theorem decodeCanonical_eq_of_fingerprint (h₁ : fingerprint e b₁ = some f)
    (h₂ : fingerprint e b₂ = some f) (t : GoType) :
    decodeCanonical e t b₁ = decodeCanonical e t b₂ := by
  obtain ⟨hn₁, hf₁⟩ | ⟨hn₁, v₁, hp₁, hf₁⟩ := fingerprint_eq_some h₁ <;>
    obtain ⟨hn₂, hf₂⟩ | ⟨hn₂, v₂, hp₂, hf₂⟩ := fingerprint_eq_some h₂
  · simp [decodeCanonical, hn₁, hn₂]
  · cases e.digest_injective (hf₁.symm.trans hf₂)
  · cases e.digest_injective (hf₁.symm.trans hf₂)
  · have hsame : canonical v₁ = canonical v₂ :=
      e.marshal_canonical hp₁ hp₂ (Option.some.inj (e.digest_injective (hf₁.symm.trans hf₂)))
    simp [decodeCanonical, hn₁, hn₂, hp₁, hp₂, hsame]

mutual

/-- The text of a value without characters to escape. -/
def text : Json → List Char
  | .null => "null".toList
  | .bool b => (toString b).toList
  | .number l => l.toList
  | .string s => '"' :: s.toList ++ ['"']
  | .array vs => '[' :: [','].intercalate (valueTexts vs) ++ [']']
  | .object ms => '\x7b' :: [','].intercalate (memberTexts ms) ++ ['\x7d']

def valueTexts : List Json → List (List Char)
  | [] => []
  | v :: vs => text v :: valueTexts vs

def memberTexts : List (String × Json) → List (List Char)
  | [] => []
  | (k, v) :: ms => ('"' :: k.toList ++ '"' :: ':' :: text v) :: memberTexts ms

end

def trim (cs : List Char) : List Char :=
  ((cs.dropWhile Char.isWhitespace).reverse.dropWhile Char.isWhitespace).reverse

/-- The texts of a few bodies with one canonical form. -/
def texted (bodies : List Json) (form : Json) (h : ∀ v ∈ bodies, canonical v = form) :
    Encoding (List Char) (List Char) (Option (List Char)) where
  length := length
  trimSpace := trim
  isEmpty := isEmpty
  parse cs := bodies.find? fun v => text v == cs
  marshal := text
  digest := id
  marshal_canonical h₁ h₂ _ :=
    (h _ (mem_of_find?_eq_some h₁)).trans (h _ (mem_of_find?_eq_some h₂)).symm
  digest_injective := injective_id

/-- The texts are different, without blanks around them and within the limit. -/
def Readable (texts : List (List Char)) : Prop :=
  texts.Nodup ∧ ∀ cs ∈ texts, trim cs = cs ∧ cs.isEmpty = false ∧ cs.length ≤ maxBody

instance (texts : List (List Char)) : Decidable (Readable texts) :=
  inferInstanceAs (Decidable (_ ∧ _))

theorem parse_texted {bodies : List Json} {form : Json} (h : ∀ v ∈ bodies, canonical v = form)
    (hr : Readable (bodies.map text)) (hv : v ∈ bodies) :
    (texted bodies form h).parse (text v) = some v := by
  obtain ⟨w, hw⟩ : ∃ w, bodies.find? (fun w => text w == text v) = some w :=
    Option.isSome_iff_exists.mp (find?_isSome.mpr ⟨v, hv, beq_self_eq_true _⟩)
  have htext : text w = text v := by simpa using find?_some hw
  rw [inj_on_of_nodup_map hr.1 (mem_of_find?_eq_some hw) hv htext] at hw
  exact hw

theorem clean_texted {bodies : List Json} {form : Json} (h : ∀ v ∈ bodies, canonical v = form)
    (hr : Readable (bodies.map text)) (hv : v ∈ bodies) (hp : Plain v) :
    Clean (texted bodies form h) (text v) := by
  obtain ⟨htrim, hempty, -⟩ := hr.2 _ (mem_map_of_mem hv)
  refine ⟨congrArg _ htrim, fun he => ?_, fun w hw => ?_⟩
  · exact absurd (hempty.symm.trans (htrim ▸ he)) Bool.false_ne_true
  · cases (parse_texted h hr hv).symm.trans hw
    exact hp

/-- A body for a clone of a desktop's image, with the given keys. -/
def cloneBody (members : List (String × String)) : Json :=
  .object (members.map fun m => (m.1, .number m.2))

def deskMembers : List (String × Json) := [("name", .string "desk"), ("source_vmid", .number "100")]

theorem plain_desk {ms : List (String × Json)} (h : ms.Perm deskMembers) : Plain (.object ms) := by
  refine .object ((h.map _).nodup_iff.mpr (by decide)) fun m hm => ?_
  rcases mem_pair.mp (h.subset hm) with rfl | rfl <;> constructor

theorem canonical_desk : ∀ v ∈ [.object deskMembers, .object deskMembers.reverse],
    canonical v = canonical (.object deskMembers) := by
  have hsame := (Reordered.members (by decide) deskMembers.reverse_perm).canonical_eq
  simp [hsame]

def sourceVmid (request : desktopCloneRequest.Value) : ℤ := request (1 : Fin 11)

def variants : List (String × String) := [("source_vmid", "100"), ("Source_vmid", "200")]

theorem canonical_variants : ∀ v ∈ [cloneBody variants, cloneBody variants.reverse],
    canonical v = canonical (cloneBody variants) := by
  have hsame : canonical (cloneBody variants) = canonical (cloneBody variants.reverse) :=
    (Reordered.members (by decide) (variants.reverse_perm.symm.map _)).canonical_eq
  simp [← hsame]

/-- A null is all that the map keeps of a repeated key, and it leaves the field as it was. -/
example :
    let v := cloneBody [("source_vmid", "7")]
    let w : Json := .object [("source_vmid", .number "7"), ("source_vmid", .null)]
    (decode desktopCloneRequest desktopCloneRequest.zero w).map sourceVmid =
        (decode desktopCloneRequest desktopCloneRequest.zero v).map sourceVmid ∧
      (decode desktopCloneRequest desktopCloneRequest.zero (canonical w)).map sourceVmid =
        some 0 := by
  decide +kernel

/-- Bodies that are plain have one fingerprint exactly if they differ only in the order of the
members of their objects, at any depth. -/
theorem fingerprint_iff_reordered {β τ φ : Type} (e : Encoding β τ φ) {b₁ b₂ : β}
    (hl₁ : e.length b₁ ≤ maxBody) (hl₂ : e.length b₂ ≤ maxBody)
    (hn₁ : e.isEmpty (e.trimSpace b₁) = false) (hn₂ : e.isEmpty (e.trimSpace b₂) = false)
    (h₁ : e.parse (e.trimSpace b₁) = some v) (h₂ : e.parse (e.trimSpace b₂) = some w)
    (hv : Plain v) (hw : Plain w) : fingerprint e b₁ = fingerprint e b₂ ↔ Reordered v w := by
  have hsame : fingerprint e b₁ = fingerprint e b₂ ↔ canonical v = canonical w := by
    simp only [fingerprint, not_lt.mpr hl₁, not_lt.mpr hl₂, hn₁, hn₂, h₁, h₂, if_false,
      Option.map_some, Option.some_inj, e.digest_injective.eq_iff, Bool.false_eq_true]
    exact ⟨e.marshal_canonical h₁ h₂, congrArg _⟩
  rw [hsame]
  exact ⟨fun h => hv.reordered.trans (h ▸ hw.reordered.symm), fun h => h.canonical_eq⟩

def nested (ms : List (String × Json)) : Json := .array [.object ms, .null]

theorem reordered_nested : Reordered (nested deskMembers) (nested deskMembers.reverse) :=
  @Reordered.value [] _ _ _ (.members (by decide) deskMembers.reverse_perm.symm)

theorem canonical_nested : ∀ v ∈ [nested deskMembers, nested deskMembers.reverse],
    canonical v = canonical (nested deskMembers) := by
  simp [reordered_nested.canonical_eq]

/-- The order of the members does not matter inside an array either. -/
theorem fingerprint_iff_reordered_nested : let e := texted _ _ canonical_nested
    fingerprint e (text (nested deskMembers)) =
      fingerprint e (text (nested deskMembers.reverse)) := by
  intro e
  have hr : Readable ([nested deskMembers, nested deskMembers.reverse].map text) := by
    decide +kernel
  have hread : ∀ v ∈ [nested deskMembers, nested deskMembers.reverse],
      e.length (text v) ≤ maxBody ∧ e.isEmpty (e.trimSpace (text v)) = false ∧
        e.parse (e.trimSpace (text v)) = some v := by
    intro v hv
    obtain ⟨htrim, hempty, hlength⟩ := hr.2 _ (mem_map_of_mem hv)
    have htrim : e.trimSpace (text v) = text v := htrim
    rw [htrim]
    exact ⟨hlength, hempty, parse_texted _ hr hv⟩
  have hplain : ∀ ms, ms.Perm deskMembers → Plain (nested ms) := by
    intro ms hms
    refine .array fun v hv => ?_
    rcases mem_pair.mp hv with rfl | rfl
    · exact plain_desk hms
    · exact .null
  obtain ⟨hl₁, hn₁, h₁⟩ := hread (nested deskMembers) (by simp)
  obtain ⟨hl₂, hn₂, h₂⟩ := hread (nested deskMembers.reverse) (by simp)
  exact (fingerprint_iff_reordered e hl₁ hl₂ hn₁ hn₂ h₁ h₂ (hplain _ .rfl)
    (hplain _ deskMembers.reverse_perm)).mpr reordered_nested

end Soundness

end VcWorkspace.Server.Fingerprint
