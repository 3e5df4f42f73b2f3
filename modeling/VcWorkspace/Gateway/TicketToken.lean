import VcWorkspace.Store.GatewayTicket
import VcWorkspace.Text.Base64

/-! # The text of a ticket

The relay and the database decode a ticket on their own, with a decoder that
skips line breaks. Both take the texts that are written for 32 bytes, and only
these.
-/

namespace VcWorkspace.Gateway.TicketToken

open Guest Store Text Transition List

def urlDigit (n : ℕ) : UInt8 :=
  if n < 26 then UInt8.ofNat (65 + n)
  else if n < 52 then UInt8.ofNat (71 + n)
  else if n < 62 then UInt8.ofNat (n - 4)
  else if n = 62 then 45
  else 95

theorem base64Value_eq_some (c : UInt8) (n : ℕ) :
    base64Value c = some n ↔ n < 64 ∧ urlDigit n = c := by
  have hvalue : ∀ k : Fin 256, (base64Value (UInt8.ofNat k)).all (fun n =>
      n < 64 && urlDigit n == UInt8.ofNat k) = true := by decide +kernel
  have hdigit : ∀ n : Fin 64, base64Value (urlDigit n) = some n.val := by decide +kernel
  constructor
  · intro h
    have hc := hvalue ⟨c.toNat, c.toNat_lt⟩
    rw [UInt8.ofNat_toNat, h] at hc
    simpa using hc
  · rintro ⟨hn, rfl⟩
    exact hdigit ⟨n, hn⟩

def rawUrlEncoding : Base64.Alphabet := ⟨urlDigit, base64Value, base64Value_eq_some⟩

/-- `base64.RawURLEncoding.Strict().DecodeString`. -/
def decodeString (text : List UInt8) : Option (List UInt8) :=
  rawUrlEncoding.decode (text.filter fun c => c != 10 && c != 13)

/-- The ticket as the relay checks it. -/
def validTicket (ticket : List UInt8) : Bool :=
  if ticket.length != 47 || !(bytes "gwt_").isPrefixOf ticket then false
  else match decodeString (ticket.drop 4) with
    | none => false
    | some decoded => decoded.length == 32

/-- The ticket as the database side checks it. -/
def gatewayTokenDigest {δ : Type} (tokenDigest : List UInt8 → δ) (token : List UInt8) :
    Except StoreError δ :=
  if !(bytes "gwt_").isPrefixOf token || token.length != 47 then .error .notFound
  else match decodeString (token.drop 4) with
    | none => .error .notFound
    | some value => if value.length != 32 then .error .notFound else .ok (tokenDigest token)

/-- What `CreateNativeGatewayTicket` makes of its random bytes. -/
def issue (secret : List UInt8) : List UInt8 := bytes "gwt_" ++ rawUrlEncoding.encode secret

section Canonical

variable {s text value : List UInt8}

theorem decodeString_eq_some (hlen : text.length = 43) :
    (decodeString text = some value ∧ value.length = 32) ↔
      rawUrlEncoding.encode value = text ∧ value.length = 32 := by
  refine and_congr_left fun hvalue => ?_
  rw [decodeString, Base64.Alphabet.decode_eq_some]
  have hencode : (rawUrlEncoding.encode value).length = 43 := by
    rw [Base64.Alphabet.length_encode, hvalue]
  constructor
  · -- a line break would leave too few characters
    intro h
    rw [h] at hencode
    rwa [filter_eq_self.mpr (length_filter_eq_length_iff.mp (hencode.trans hlen.symm))]
      at h
  · intro h
    rw [h]
    refine (filter_eq_self.mpr fun c hc => ?_).symm
    have hc := Base64.Alphabet.isSome_value_of_decode (Base64.Alphabet.decode_eq_some.mpr h) hc
    simp only [Bool.and_eq_true, bne_iff_ne]
    constructor <;> (rintro rfl; exact absurd hc (by decide))

theorem decodeString_issue (h : value.length = 32) :
    decodeString ((issue value).drop 4) = some value := by
  have htext : (rawUrlEncoding.encode value).length = 43 := by
    rw [Base64.Alphabet.length_encode, h]
  exact ((decodeString_eq_some htext).mpr ⟨rfl, h⟩).1

theorem eq_issue_iff : (s.length = 47 ∧ bytes "gwt_" <+: s ∧
    ∃ v, decodeString (s.drop 4) = some v ∧ v.length = 32) ↔ ∃ v, v.length = 32 ∧ s = issue v := by
  have hfour : (bytes "gwt_").length = 4 := by decide
  constructor
  · rintro ⟨hlen, ⟨text, rfl⟩, v, hv⟩
    have htext : text.length = 43 := by
      rw [length_append, hfour] at hlen
      omega
    obtain ⟨hencode, hv⟩ := (decodeString_eq_some htext).mp hv
    exact ⟨v, hv, by rw [issue, hencode]⟩
  · rintro ⟨v, hv, rfl⟩
    have htext : (rawUrlEncoding.encode v).length = 43 := by
      rw [Base64.Alphabet.length_encode, hv]
    exact ⟨by simp [issue, hfour, htext], prefix_append _ _, v, decodeString_issue hv, hv⟩

theorem validTicket_iff : validTicket s = true ↔ ∃ v, v.length = 32 ∧ s = issue v := by
  rw [← eq_issue_iff, validTicket]
  split
  next h =>
    simp only [Bool.or_eq_true, bne_iff_ne, Bool.not_eq_true', ← Bool.not_eq_true,
      isPrefixOf_iff_prefix] at h
    simp only [Bool.false_eq_true, false_iff, not_and]
    exact fun hlen hpre => (h.elim (· hlen) (· hpre)).elim
  next h =>
    simp only [Bool.or_eq_true, bne_iff_ne, Bool.not_eq_true', ← Bool.not_eq_true, not_or, not_not,
      isPrefixOf_iff_prefix] at h
    cases hd : decodeString (s.drop 4) <;> simp [h]

theorem gatewayTokenDigest_eq_ok {δ : Type} {tokenDigest : List UInt8 → δ} {d : δ} :
    gatewayTokenDigest tokenDigest s = .ok d ↔ validTicket s = true ∧ d = tokenDigest s := by
  unfold gatewayTokenDigest validTicket
  rw [Bool.or_comm]
  split
  · simp
  · cases decodeString (s.drop 4) with
    | none => simp
    | some v =>
      by_cases hv : v.length = 32
      · simp only [hv, beq_self_eq_true, true_and]
        exact ⟨fun h => (Except.ok.inj h).symm, fun h => h ▸ rfl⟩
      · simp [hv]

theorem exists_decodeString_iff (hlen : text.length = 43) :
    (∃ v, decodeString text = some v ∧ v.length = 32) ↔
      (∀ c ∈ text, (base64Value c).isSome = true) ∧
        (text.getLast?.bind base64Value).any (fun n => n % 4 == 0) = true := by
  simp only [decodeString_eq_some hlen, ← Base64.Alphabet.decode_eq_some]
  have hgroup : text.length % 4 = 3 := by rw [hlen]
  constructor
  · rintro ⟨v, hv, -⟩
    have hall : ∀ c ∈ text, (base64Value c).isSome = true := fun c hc =>
      Base64.Alphabet.isSome_value_of_decode hv hc
    exact ⟨hall, (rawUrlEncoding.exists_decode hgroup hall).mpr ⟨v, hv⟩⟩
  · rintro ⟨hall, hlast⟩
    obtain ⟨v, hv⟩ := (rawUrlEncoding.exists_decode hgroup hall).mp hlast
    have hsize := rawUrlEncoding.length_encode v
    rw [Base64.Alphabet.decode_eq_some.mp hv, hlen] at hsize
    exact ⟨v, hv, by omega⟩

/-- The check that the models of the relay and of the store use is the same. -/
theorem store_validTicket (token : String) :
    Store.validTicket token = validTicket (bytes token) := by
  rw [Bool.eq_iff_iff, validTicket_iff, ← eq_issue_iff]
  simp only [Store.validTicket, startsWith, Bool.and_eq_true, isPrefixOf_iff_prefix,
    beq_iff_eq, all_eq_true]
  constructor
  · rintro ⟨⟨⟨hpre, hlen⟩, hall⟩, hlast⟩
    exact ⟨hlen, hpre, (exists_decodeString_iff (by simp [hlen])).mpr ⟨hall, hlast⟩⟩
  · rintro ⟨hlen, hpre, hv⟩
    obtain ⟨hall, hlast⟩ := (exists_decodeString_iff (by simp [hlen])).mp hv
    exact ⟨⟨⟨hpre, hlen⟩, hall⟩, hlast⟩

end Canonical

/-- Both sides take the tickets that are issued for 32 bytes, each written in one way. -/
theorem ticket_token_encoding {δ : Type} (tokenDigest : List UInt8 → δ) (s : List UInt8) :
    (validTicket s = true ↔ ∃ v, v.length = 32 ∧ s = issue v) ∧
    ((∃ d, gatewayTokenDigest tokenDigest s = .ok d) ↔ ∃ v, v.length = 32 ∧ s = issue v) ∧
    (∀ token : String, Store.validTicket token = validTicket (bytes token)) ∧
    (∀ v v', issue v = issue v' → v = v') ∧ ∀ s', validTicket s = true → validTicket s' = true →
      decodeString (s.drop 4) = decodeString (s'.drop 4) → s = s' := by
  refine ⟨validTicket_iff, ?_, store_validTicket, fun v v' h => ?_, fun s' hs hs' h => ?_⟩
  · simp [gatewayTokenDigest_eq_ok, validTicket_iff]
  · have henc := append_cancel_left h
    exact Option.some.inj ((Base64.Alphabet.decode_eq_some.mpr henc).symm.trans
      (Base64.Alphabet.decode_eq_some.mpr rfl))
  · obtain ⟨v, hv, rfl⟩ := validTicket_iff.mp hs
    obtain ⟨v', hv', rfl⟩ := validTicket_iff.mp hs'
    rw [decodeString_issue hv, decodeString_issue hv'] at h
    rw [Option.some.inj h]

end VcWorkspace.Gateway.TicketToken
