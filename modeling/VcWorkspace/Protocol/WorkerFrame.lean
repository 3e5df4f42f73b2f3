import VcWorkspace.Store.GatewayTicket
import VcWorkspace.Text.BigEndian
import VcWorkspace.Text.Decimal
import VcWorkspace.Text.Hex
import VcWorkspace.Text.Pattern
import VcWorkspace.Text.Template

/-! # Frames of the session worker

The broker writes the configuration of a headless session into one frame, and the
worker reads it: a header of fixed size with the lengths of four texts, and the
texts. What the broker writes the worker reads back until it expires, and the worker
reads nothing else.
-/

namespace VcWorkspace.Protocol.WorkerFrame

open Store Text Guest List Decimal BigEndian
open Option (ite_none_left_eq_some)
open Bool (and_eq_true not_eq_true' or_eq_true)

section Layout

structure Fields where
  expires : ℕ
  port : ℕ
  width : ℕ
  height : ℕ
  digest : List UInt8
  host : List UInt8
  username : List UInt8
  domain : List UInt8
  password : List UInt8
  deriving DecidableEq, Repr

/-- The text `VCW1`. -/
def magic : List UInt8 := [86, 67, 87, 49]

def Fields.body (f : Fields) : List UInt8 :=
  magic ++ (BigEndian.encode 8 f.expires ++ (BigEndian.encode 2 f.port ++
    (BigEndian.encode 2 f.width ++ (BigEndian.encode 2 f.height ++
    (BigEndian.encode 1 f.host.length ++ (BigEndian.encode 1 f.username.length ++
    (BigEndian.encode 1 f.domain.length ++ (BigEndian.encode 2 f.password.length ++
    (f.digest ++ (f.host ++ (f.username ++ (f.domain ++ f.password))))))))))))

structure Fields.Fits (f : Fields) : Prop where
  expires : f.expires < 256 ^ 8
  port : f.port < 256 ^ 2
  width : f.width < 256 ^ 2
  height : f.height < 256 ^ 2
  digest : f.digest.length = 32
  host : f.host.length < 256 ^ 1
  username : f.username.length < 256 ^ 1
  domain : f.domain.length < 256 ^ 1
  password : f.password.length < 256 ^ 2

def slice (data : List UInt8) (offset length : ℕ) : List UInt8 := (data.drop offset).take length

def number (data : List UInt8) (offset length : ℕ) : ℕ :=
  BigEndian.decode (slice data offset length)

def fields (data : List UInt8) : Fields :=
  let host := number data 18 1
  let user := number data 19 1
  let domain := number data 20 1
  let password := number data 21 2
  { expires := number data 4 8
    port := number data 12 2
    width := number data 14 2
    height := number data 16 2
    digest := slice data 23 32
    host := slice data 55 host
    username := slice data (55 + host) user
    domain := slice data (55 + host + user) domain
    password := slice data (55 + host + user + domain) password }

variable {data p q r : List UInt8} {offset n m : ℕ} {f : Fields}

theorem slice_skip (k : ℕ) (h : p.length = k) :
    slice (p ++ q) (offset + k) n = slice q offset n := by
  subst h
  simp [slice, Nat.add_comm offset]

theorem slice_here (h : p.length = n) : slice (p ++ q) 0 n = p := by
  rw [slice, drop_zero, ← h, take_left]

theorem number_skip (k : ℕ) (h : p.length = k) :
    number (p ++ q) (offset + k) n = number q offset n := by
  rw [number, number, slice_skip k h]

theorem number_here (h : m < 256 ^ n) : number (BigEndian.encode n m ++ q) 0 n = m := by
  rw [number, slice_here (length_encode n m), decode_encode h]

theorem length_slice (h : offset + n ≤ data.length) : (slice data offset n).length = n := by
  rw [slice, length_take, length_drop]
  omega

theorem number_lt : number data offset n < 256 ^ n := by
  have hlen : (slice data offset n).length ≤ n := length_take_le ..
  exact lt_of_lt_of_le (decode_lt _) (Nat.pow_le_pow_right (by decide) hlen)

theorem length_body (h : f.digest.length = 32) : f.body.length =
    55 + f.host.length + f.username.length + f.domain.length + f.password.length := by
  simp only [Fields.body, magic, length_append, length_encode, length_cons,
    length_nil, h]
  omega

structure Fields.Header (f : Fields) : Prop where
  expires : number f.body 4 8 = f.expires
  port : number f.body 12 2 = f.port
  width : number f.body 14 2 = f.width
  height : number f.body 16 2 = f.height
  host : number f.body 18 1 = f.host.length
  username : number f.body 19 1 = f.username.length
  domain : number f.body 20 1 = f.domain.length
  password : number f.body 21 2 = f.password.length

theorem header_body (h : f.Fits) : f.Header := by
  have hskip (w k : ℕ) : (BigEndian.encode w k).length = w := length_encode w k
  -- The rest of the header follows the first two numbers.
  have hrest (offset n : ℕ) : number f.body (offset + 2 + 8 + 4) n = number _ offset n :=
    (number_skip 4 rfl).trans ((number_skip 8 (hskip ..)).trans (number_skip 2 (hskip ..)))
  have hlengths (offset n : ℕ) : number f.body (offset + 2 + 2 + 2 + 8 + 4) n = number _ offset n :=
    (hrest _ _).trans ((number_skip 2 (hskip ..)).trans (number_skip 2 (hskip ..)))
  constructor
  case expires => exact (number_skip 4 rfl).trans (number_here h.expires)
  case port =>
    exact (number_skip 4 rfl).trans ((number_skip 8 (hskip ..)).trans (number_here h.port))
  case width => exact (hrest 0 2).trans (number_here h.width)
  case height => exact (hrest 2 2).trans ((number_skip 2 (hskip ..)).trans (number_here h.height))
  case host => exact (hlengths 0 1).trans (number_here h.host)
  case username =>
    exact (hlengths 1 1).trans ((number_skip 1 (hskip ..)).trans (number_here h.username))
  case domain =>
    exact (hlengths 2 1).trans ((number_skip 1 (hskip ..)).trans ((number_skip 1 (hskip ..)).trans
      (number_here h.domain)))
  case password =>
    exact (hlengths 3 2).trans ((number_skip 1 (hskip ..)).trans ((number_skip 1 (hskip ..)).trans
      ((number_skip 1 (hskip ..)).trans (number_here h.password))))

theorem slice_body (offset n : ℕ) : slice f.body (offset + 23) n =
    slice (f.digest ++ (f.host ++ (f.username ++ (f.domain ++ f.password)))) offset n := by
  have hbody : f.body = (magic ++ (BigEndian.encode 8 f.expires ++ (BigEndian.encode 2 f.port ++
      (BigEndian.encode 2 f.width ++ (BigEndian.encode 2 f.height ++
      (BigEndian.encode 1 f.host.length ++ (BigEndian.encode 1 f.username.length ++
      (BigEndian.encode 1 f.domain.length ++ BigEndian.encode 2 f.password.length)))))))) ++
      (f.digest ++ (f.host ++ (f.username ++ (f.domain ++ f.password)))) := by
    simp [Fields.body]
  rw [hbody, slice_skip 23]
  simp [magic]

theorem fields_body (h : f.Fits) : fields f.body = f := by
  have hheader := header_body h
  have hdigest : slice f.body 23 32 = f.digest := (slice_body 0 32).trans (slice_here h.digest)
  have hafter (offset n : ℕ) : slice f.body (offset + 55) n =
      slice (f.host ++ (f.username ++ (f.domain ++ f.password))) offset n :=
    (slice_body (offset + 32) n).trans (slice_skip 32 h.digest)
  have hhost : slice f.body 55 f.host.length = f.host := (hafter 0 _).trans (slice_here rfl)
  have husername : slice f.body (55 + f.host.length) f.username.length = f.username := by
    rw [Nat.add_comm, hafter, ← Nat.zero_add f.host.length, slice_skip _ rfl, slice_here rfl]
  have hdomain : slice f.body (55 + f.host.length + f.username.length) f.domain.length =
      f.domain := by
    rw [show 55 + f.host.length + f.username.length =
        0 + f.username.length + f.host.length + 55 by omega, hafter, slice_skip _ rfl,
      slice_skip _ rfl, slice_here rfl]
  have hpassword : slice f.body (55 + f.host.length + f.username.length + f.domain.length)
      f.password.length = f.password := by
    rw [show 55 + f.host.length + f.username.length + f.domain.length =
        0 + f.domain.length + f.username.length + f.host.length + 55 by omega, hafter,
      slice_skip _ rfl, slice_skip _ rfl, slice_skip _ rfl, slice, drop_zero, take_length]
  simp [fields, hheader.expires, hheader.port, hheader.width, hheader.height, hheader.host,
    hheader.username, hheader.domain, hheader.password, hdigest, hhost, husername, hdomain,
    hpassword]

theorem body_fields (hmagic : slice data 0 4 = magic)
    (hlength : data.length = 55 + number data 18 1 + number data 19 1 + number data 20 1 +
      number data 21 2) : (fields data).body = data := by
  have hlen (offset n : ℕ) (h : offset + n ≤ data.length) : (slice data offset n).length = n :=
    length_slice h
  have hnum (offset n : ℕ) (h : offset + n ≤ data.length) :
      BigEndian.encode n (number data offset n) = slice data offset n :=
    encode_decode (length_slice h)
  have hhost : (fields data).host.length = number data 18 1 := hlen _ _ (by omega)
  have husername : (fields data).username.length = number data 19 1 := hlen _ _ (by omega)
  have hdomain : (fields data).domain.length = number data 20 1 := hlen _ _ (by omega)
  have hpassword : (fields data).password.length = number data 21 2 := hlen _ _ (by omega)
  rw [Fields.body, hhost, husername, hdomain, hpassword]
  simp only [fields]
  rw [hnum 4 8 (by omega), hnum 12 2 (by omega), hnum 14 2 (by omega), hnum 16 2 (by omega),
    hnum 18 1 (by omega), hnum 19 1 (by omega), hnum 20 1 (by omega), hnum 21 2 (by omega),
    ← hmagic]
  have hjoin {a n b k : ℕ} (h : a + n = b) :
      slice data a n ++ slice data b k = slice data a (n + k) := by
    rw [← h, slice, slice, slice, take_add, drop_drop]
  rw [hjoin (b := 55 + _ + _ + _) rfl, hjoin (b := 55 + _ + _) rfl, hjoin (b := 55 + _) rfl,
    hjoin (b := 55) rfl, hjoin (b := 23) rfl, hjoin (b := 21) rfl, hjoin (b := 20) rfl,
    hjoin (b := 19) rfl, hjoin (b := 18) rfl, hjoin (b := 16) rfl, hjoin (b := 14) rfl,
    hjoin (b := 12) rfl, hjoin (b := 4) rfl, slice, drop_zero]
  exact take_of_length_le (by omega)

end Layout

section Texts

/-- The canonical text of a version 4 address. -/
def dottedQuad (a b c d : UInt8) : List UInt8 :=
  [46].intercalate [Decimal.render a.toNat, Decimal.render b.toNat, Decimal.render c.toNat,
    Decimal.render d.toNat]

def octet (text : List UInt8) : Option UInt8 :=
  if Decimal.canonical text && Decimal.value text < 256 then some (UInt8.ofNat (Decimal.value text))
  else none

def inetPton (text : List UInt8) : Option (UInt8 × UInt8 × UInt8 × UInt8) :=
  match text.splitOn 46 with
  | [a, b, c, d] => do
    let a ← octet a
    let b ← octet b
    let c ← octet c
    let d ← octet d
    some (a, b, c, d)
  | _ => none

variable {a b c d : UInt8} {text : List UInt8}

theorem octet_eq_some : octet text = some a ↔ text = Decimal.render a.toNat := by
  have ha := a.toNat_lt
  simp only [octet, Option.ite_none_right_eq_some, and_eq_true, decide_eq_true_eq,
    Option.some.injEq]
  constructor
  · rintro ⟨⟨hcanonical, hlt⟩, rfl⟩
    rw [UInt8.toNat_ofNat_of_lt' hlt, render_value hcanonical]
  · rintro rfl
    rw [value_render]
    exact ⟨⟨canonical_render _, ha⟩, UInt8.ofNat_toNat⟩

theorem inetPton_eq_some : inetPton text = some (a, b, c, d) ↔ text = dottedQuad a b c d := by
  constructor
  · intro h
    unfold inetPton at h
    split at h
    next p q r s hsplit =>
      simp only [Option.bind_eq_bind, Option.bind_eq_some_iff, Option.some.injEq, Prod.mk.injEq,
        octet_eq_some] at h
      obtain ⟨_, rfl, _, rfl, _, rfl, _, rfl, rfl, rfl, rfl, rfl⟩ := h
      rw [dottedQuad, ← hsplit, intercalate_splitOn]
    · cases h
  · rintro rfl
    have hsplit : (dottedQuad a b c d).splitOn 46 = [Decimal.render a.toNat,
        Decimal.render b.toNat, Decimal.render c.toNat, Decimal.render d.toNat] := by
      refine splitOn_intercalate _ ?_ (cons_ne_nil _ _)
      simp [notMem_render (b := 46) rfl]
    have hoctet (x : UInt8) : octet (Decimal.render x.toNat) = some x := octet_eq_some.mpr rfl
    simp [inetPton, hsplit, hoctet]

theorem length_render_octet (a : UInt8) :
    1 ≤ (Decimal.render a.toNat).length ∧ (Decimal.render a.toNat).length ≤ 3 := by
  have ha := a.toNat_lt
  refine ⟨length_pos_iff.mpr (render_ne_nil _), ?_⟩
  rw [Decimal.render, length_map]
  exact Nat.toDigits_length 10 a.toNat 3 (by decide) (by omega)

theorem length_dottedQuad (a b c d : UInt8) :
    7 ≤ (dottedQuad a b c d).length ∧ (dottedQuad a b c d).length ≤ 15 := by
  have ha := length_render_octet a
  have hb := length_render_octet b
  have hc := length_render_octet c
  have hd := length_render_octet d
  simp only [dottedQuad, List.intercalate, List.intersperse, flatten_cons, flatten_nil,
    length_append, length_singleton, length_nil]
  omega

theorem zero_notMem_dottedQuad : 0 ∉ dottedQuad a b c d := by
  have hrender (n : ℕ) : 0 ∉ Decimal.render n := fun h =>
    absurd (isDigit_of_mem_render h) (by decide)
  simp [dottedQuad, hrender]

theorem dottedQuad_inj {a' b' c' d' : UInt8} (h : dottedQuad a b c d = dottedQuad a' b' c' d') :
    a = a' ∧ b = b' ∧ c = c' ∧ d = d' := by
  have hleft := inetPton_eq_some.mpr h
  rw [inetPton_eq_some.mpr rfl] at hleft
  simpa using hleft

end Texts

section Encoder

/-- A time in nanoseconds whose milliseconds fit into 64 bits; for others they are not defined. -/
structure Time where
  nanos : ℤ
  lower : -2 ^ 63 ≤ nanos / 1000000
  upper : nanos / 1000000 < 2 ^ 63

def Time.unixMilli (t : Time) : ℤ := t.nanos / 1000000

structure Config where
  addr : Addr
  port : UInt16
  username : List UInt8
  domain : List UInt8
  password : List UInt8
  certificateSha256 : List UInt8
  width : ℤ
  height : ℤ
  expiresAt : Time

/-- The pattern `^vca[a-f0-9]{12}$`. -/
def userRE : Pattern :=
  Pattern.literal (bytes "vca") *
    Pattern.times (Pattern.anyOf (Pattern.range 97 102 ++ Pattern.range 48 57)) 12

/-- The pattern `^[A-Za-z0-9-]{1,15}$`. -/
def domainRE : Pattern :=
  Pattern.between (Pattern.anyOf
    (Pattern.range 65 90 ++ Pattern.range 97 122 ++ Pattern.range 48 57 ++ [45])) 1 15

/-- The text of an address; only those of version 4 get into a frame. -/
def hostText : Addr → List UInt8
  | .v4 a b c d => dottedQuad a b c d
  | .v6 _ => []

/-- What the broker writes for a configuration: numbers are cut to their width. -/
def Config.fields (c : Config) (digest : List UInt8) : Fields where
  expires := (c.expiresAt.unixMilli % 2 ^ 64).toNat
  port := c.port.toNat
  width := (c.width % 2 ^ 16).toNat
  height := (c.height % 2 ^ 16).toNat
  digest := digest
  host := hostText c.addr
  username := c.username
  domain := c.domain
  password := c.password

def payload (body : List UInt8) : List UInt8 := BigEndian.encode 4 body.length ++ body

def maxLifetime : ℤ := 8 * 60 * 60 * 1000000000

def frame (c : Config) (now : Time) : Option (List UInt8) :=
  if !c.addr.is4 || !c.addr.isPrivate || c.port == 0 || !userRE.rmatch c.username ||
      !domainRE.rmatch c.domain || c.password.length < 24 || 256 < c.password.length ||
      c.width < 640 || 1920 < c.width || c.height < 480 || 1200 < c.height ||
      c.expiresAt.nanos ≤ now.nanos || maxLifetime < c.expiresAt.nanos - now.nanos then none
  else if c.password.any fun b => b < 33 || 126 < b then none
  else
    match Hex.decode c.certificateSha256 with
    | none => none
    | some digest =>
      if digest.length != 32 then none else some (payload (c.fields digest).body)

end Encoder

section Decoder

def maxFrame : ℕ := 1024

def maxLifetimeMs : ℕ := 8 * 60 * 60 * 1000

structure Request where
  expiresUnixMs : ℕ
  port : ℕ
  width : ℕ
  height : ℕ
  host : List UInt8
  username : List UInt8
  domain : List UInt8
  password : List UInt8
  fingerprint : List UInt8
  deriving DecidableEq, Repr

def asciiAlnum (b : UInt8) : Bool :=
  (97 ≤ b && b ≤ 122) || (65 ≤ b && b ≤ 90) || (48 ≤ b && b ≤ 57)

def fingerprint (digest : List UInt8) : List UInt8 := bytes "sha256:" ++ Hex.encode digest

def request (f : Fields) : Request :=
  ⟨f.expires, f.port, f.width, f.height, f.host, f.username, f.domain, f.password,
    fingerprint f.digest⟩

def privateNumber (ip : ℕ) : Bool :=
  ip / 2 ^ 24 == 10 || ip / 2 ^ 20 == 0xac1 || ip / 2 ^ 16 == 0xc0a8

def decode (data : List UInt8) (now : ℕ) : Option Request :=
  if data.length < 55 || maxFrame < data.length || slice data 0 4 != magic then none
  else
    let f := fields data
    let host := number data 18 1
    let user := number data 19 1
    let domain := number data 20 1
    let password := number data 21 2
    if f.expires ≤ now || maxLifetimeMs < f.expires - now then none
    else if f.port == 0 || f.width < 640 || f.height < 480 || 1920 < f.width || 1200 < f.height ||
        host < 7 || 15 < host || user != 15 || domain == 0 || 15 < domain || password < 24 ||
        256 < password || data.length != 55 + host + user + domain + password then none
    else if f.host.contains 0 then none
    else
      match inetPton f.host with
      | none => none
      | some (a, b, c, d) =>
        if !privateNumber (BigEndian.decode [a, b, c, d]) || f.username.take 3 != bytes "vca" ||
            !(f.username.drop 3).all Hex.isLower ||
            !f.domain.all (fun b => asciiAlnum b || b == 45) ||
            f.password.any (fun b => b < 33 || 126 < b) then none
        else some (request f)

end Decoder

section Agreement

/-- What the broker and the worker ask of the fields, apart from the expiry. -/
structure Sound (f : Fields) : Prop where
  port : f.port ≠ 0
  width : 640 ≤ f.width ∧ f.width ≤ 1920
  height : 480 ≤ f.height ∧ f.height ≤ 1200
  digest : f.digest.length = 32
  host : ∃ a b c d, f.host = dottedQuad a b c d ∧ (Addr.v4 a b c d).isPrivate = true
  username : ∃ digits, f.username = bytes "vca" ++ digits ∧ digits.length = 12 ∧
    ∀ b ∈ digits, Hex.isLower b = true
  domain : 1 ≤ f.domain.length ∧ f.domain.length ≤ 15 ∧
    ∀ b ∈ f.domain, asciiAlnum b = true ∨ b = 45
  password : 24 ≤ f.password.length ∧ f.password.length ≤ 256 ∧
    ∀ b ∈ f.password, 33 ≤ b ∧ b ≤ 126

variable {c : Config} {f : Fields} {now : Time} {x : List UInt8}

theorem userRE_iff : userRE.rmatch x = true ↔ ∃ digits, x = bytes "vca" ++ digits ∧
    digits.length = 12 ∧ ∀ b ∈ digits, Hex.isLower b = true := by
  rw [Pattern.rmatch_iff, userRE, Pattern.mem_literal_mul]
  simp only [Pattern.mem_times, mem_append, Pattern.mem_range, Hex.isLower, or_eq_true,
    and_eq_true, decide_eq_true_eq]
  constructor
  · rintro ⟨y, ⟨hlen, hall⟩, rfl⟩
    exact ⟨y, rfl, hlen, fun b hb => (hall b hb).symm⟩
  · rintro ⟨y, rfl, hlen, hall⟩
    exact ⟨y, ⟨hlen, fun b hb => (hall b hb).symm⟩, rfl⟩

theorem domainRE_iff : domainRE.rmatch x = true ↔ 1 ≤ x.length ∧ x.length ≤ 15 ∧
    ∀ b ∈ x, asciiAlnum b = true ∨ b = 45 := by
  rw [Pattern.rmatch_iff, domainRE, Pattern.mem_between (by decide)]
  simp only [mem_append, Pattern.mem_range, mem_singleton, asciiAlnum, or_eq_true,
    and_eq_true, decide_eq_true_eq, or_assoc, or_left_comm]

theorem privateNumber_iff (a b c d : UInt8) :
    privateNumber (BigEndian.decode [a, b, c, d]) = (Addr.v4 a b c d).isPrivate := by
  have hmask : ∀ k : Fin 256, (UInt8.ofNat k &&& 0xf0 == 16) = (k.val / 16 == 1) := by
    decide +kernel
  have hb := hmask ⟨b.toNat, b.toNat_lt⟩
  rw [UInt8.ofNat_toNat] at hb
  have hb' := b.toNat_lt
  have hc := c.toNat_lt
  have hd := d.toNat_lt
  have hip : BigEndian.decode [a, b, c, d] =
      256 * (256 * (256 * a.toNat + b.toNat) + c.toNat) + d.toNat := by
    simp [BigEndian.decode]
  rw [privateNumber, Addr.isPrivate, hb, hip, Bool.eq_iff_iff]
  simp only [or_eq_true, and_eq_true, beq_iff_eq, ← UInt8.toNat_inj]
  have h10 : (10 : UInt8).toNat = 10 := rfl
  have h172 : (172 : UInt8).toNat = 172 := rfl
  have h192 : (192 : UInt8).toNat = 192 := rfl
  have h168 : (168 : UInt8).toNat = 168 := rfl
  omega

theorem Sound.fits (h : Sound f) (hexpires : f.expires < 256 ^ 8) (hport : f.port < 256 ^ 2) :
    f.Fits := by
  obtain ⟨a, b, c, d, hhost, -⟩ := h.host
  obtain ⟨digits, husername, hdigits, -⟩ := h.username
  have hlen := length_dottedQuad a b c d
  have hwidth := h.width
  have hheight := h.height
  have hdomain := h.domain
  have hpassword := h.password
  have husernameLength : f.username.length = 15 := by
    rw [husername, length_append, hdigits]
    rfl
  rw [← hhost] at hlen
  exact ⟨hexpires, hport, by omega, by omega, h.digest, by omega, by omega, by omega, by omega⟩

theorem decode_body (h : Sound f) (hexpires : f.expires < 256 ^ 8) (hport : f.port < 256 ^ 2)
    (hnow : t < f.expires) (hlife : f.expires - t ≤ maxLifetimeMs) :
    decode f.body t = some (request f) := by
  have hfits := h.fits hexpires hport
  have hheader := header_body hfits
  obtain ⟨a, b, c, d, hhost, hprivate⟩ := h.host
  obtain ⟨digits, husername, hdigits, hhex⟩ := h.username
  have hwidth := h.width
  have hheight := h.height
  have hdomain := h.domain
  have hpassword := h.password
  have hhostLength := length_dottedQuad a b c d
  have husernameLength : f.username.length = 15 := by
    rw [husername, length_append, hdigits]
    rfl
  have hlength := length_body h.digest
  rw [← hhost] at hhostLength
  unfold decode
  rw [if_neg, fields_body hfits, if_neg, if_neg, if_neg, inetPton_eq_some.mpr hhost]
  · dsimp only
    rw [if_neg]
    have htake : f.username.take 3 = bytes "vca" := by
      rw [husername]
      exact take_left' rfl
    have hdrop : f.username.drop 3 = digits := by
      rw [husername]
      exact drop_left' rfl
    simp only [privateNumber_iff, hprivate, htake, hdrop, or_eq_true, not_eq_true',
      bne_self_eq_false, all_eq_false, any_eq_true, decide_eq_true_eq]
    rintro ((((h | h) | ⟨b, hb, hfalse⟩) | ⟨b, hb, hfalse⟩) | ⟨b, hb, hfalse⟩)
    · cases h
    · cases h
    · exact hfalse (hhex b hb)
    · exact hfalse (by simpa using hdomain.2.2 b hb)
    · have hrange := hpassword.2.2 b hb
      simp only [UInt8.le_iff_toNat_le, UInt8.lt_iff_toNat_lt] at hrange hfalse
      omega
  · rw [hhost]
    simp [zero_notMem_dottedQuad]
  · have hport := h.port
    simp only [hheader.host, hheader.username, hheader.domain, hheader.password, hlength,
      or_eq_true, beq_iff_eq, bne_iff_ne, decide_eq_true_eq]
    omega
  · simp only [or_eq_true, decide_eq_true_eq]
    omega
  · have hmagic : slice f.body 0 4 = magic := slice_here rfl
    simp only [hmagic, hlength, or_eq_true, decide_eq_true_eq, bne_self_eq_false,
      Bool.false_eq_true, or_false, maxFrame]
    omega

theorem sound_of_decode {data : List UInt8} {r : Request} (h : decode data t = some r) :
    ∃ f, Sound f ∧ f.expires < 256 ^ 8 ∧ f.port < 256 ^ 2 ∧ data = f.body ∧ r = request f := by
  obtain ⟨hframe, h⟩ := ite_none_left_eq_some.mp h
  obtain ⟨-, h⟩ := ite_none_left_eq_some.mp h
  obtain ⟨hsizes, h⟩ := ite_none_left_eq_some.mp h
  obtain ⟨-, h⟩ := ite_none_left_eq_some.mp h
  split at h
  · cases h
  next a b c d hhost =>
    obtain ⟨htexts, h⟩ := ite_none_left_eq_some.mp h
    cases h
    simp only [or_eq_true, beq_iff_eq, bne_iff_ne, decide_eq_true_eq, not_or, not_lt,
      not_not, not_eq_true', Bool.not_eq_false, all_eq_true, any_eq_true,
      not_exists, not_and, privateNumber_iff] at hframe hsizes htexts
    obtain ⟨⟨⟨⟨hprivate, htake⟩, hhex⟩, hdomain⟩, hpassword⟩ := htexts
    obtain ⟨⟨hlo, -⟩, hmagic⟩ := hframe
    refine ⟨fields data, ?_, number_lt, number_lt, (body_fields hmagic (by omega)).symm, rfl⟩
    have hlen (offset n : ℕ) (h : offset + n ≤ data.length) := length_slice h
    have husernameLength : (fields data).username.length = 15 := by
      refine (hlen _ _ ?_).trans ?_ <;> omega
    constructor
    case port => omega
    case width => omega
    case height => omega
    case digest => exact hlen _ _ (by omega)
    case host => exact ⟨a, b, c, d, inetPton_eq_some.mp hhost, hprivate⟩
    case username =>
      refine ⟨(fields data).username.drop 3, ?_, ?_, hhex⟩
      · rw [← htake, take_append_drop]
      · rw [length_drop, husernameLength]
    case domain =>
      have hdomainLength : (fields data).domain.length = number data 20 1 := hlen _ _ (by omega)
      exact ⟨by omega, by omega, hdomain⟩
    case password =>
      have hpasswordLength : (fields data).password.length = number data 21 2 := hlen _ _ (by omega)
      refine ⟨by omega, by omega, fun b hb => ?_⟩
      have hrange := hpassword b hb
      simp only [UInt8.le_iff_toNat_le, UInt8.lt_iff_toNat_lt] at hrange ⊢
      omega

structure Config.Accepted (c : Config) (now : Time) (digest : List UInt8) : Prop where
  hex : Hex.decode c.certificateSha256 = some digest
  addr : ∃ a b c' d, c.addr = .v4 a b c' d
  width : 640 ≤ c.width ∧ c.width ≤ 1920
  height : 480 ≤ c.height ∧ c.height ≤ 1200
  sound : Sound (c.fields digest)
  alive : now.nanos < c.expiresAt.nanos
  life : c.expiresAt.nanos - now.nanos ≤ maxLifetime

theorem frame_eq_some {out : List UInt8} : frame c now = some out ↔
    ∃ digest, c.Accepted now digest ∧ out = payload (c.fields digest).body := by
  constructor
  · intro h
    obtain ⟨hchecks, h⟩ := ite_none_left_eq_some.mp h
    obtain ⟨hpassword, h⟩ := ite_none_left_eq_some.mp h
    split at h
    · cases h
    next digest hhex =>
      obtain ⟨hlength, h⟩ := ite_none_left_eq_some.mp h
      cases h
      simp only [or_eq_true, beq_iff_eq, bne_iff_ne, decide_eq_true_eq, not_or, not_lt,
        not_le, not_not, not_eq_true', Bool.not_eq_false, any_eq_true, not_exists,
        not_and, userRE_iff, domainRE_iff] at hchecks hpassword hlength
      obtain ⟨⟨⟨⟨⟨⟨⟨⟨⟨⟨⟨⟨h4, hprivate⟩, hport⟩, huser⟩, hdomain⟩, hshort⟩, hlong⟩, hw⟩, hw'⟩, hh⟩,
        hh'⟩, halive⟩, hlife⟩ := hchecks
      obtain ⟨a, b, c', d, haddr⟩ : ∃ a b c' d, c.addr = .v4 a b c' d := by
        cases haddr : c.addr with
        | v4 a b c' d => exact ⟨a, b, c', d, rfl⟩
        | v6 _ =>
          rw [haddr] at h4
          cases h4
      refine ⟨digest, ⟨hhex, ⟨a, b, c', d, haddr⟩, ⟨hw, hw'⟩, ⟨hh, hh'⟩, ?_, halive, hlife⟩, rfl⟩
      constructor
      case port => exact fun h => hport (UInt16.toNat_inj.mp h)
      case width => simp only [Config.fields]; omega
      case height => simp only [Config.fields]; omega
      case digest => exact hlength
      case host =>
        exact ⟨a, b, c', d, by simp only [Config.fields, haddr, hostText], haddr ▸ hprivate⟩
      case username => exact huser
      case domain => exact hdomain
      case password =>
        refine ⟨hshort, hlong, fun b hb => ?_⟩
        have hrange := hpassword b hb
        simp only [UInt8.le_iff_toNat_le, UInt8.lt_iff_toNat_lt] at hrange ⊢
        omega
  · rintro ⟨digest, h, rfl⟩
    obtain ⟨a, b, c', d, haddr⟩ := h.addr
    have hprivate : c.addr.isPrivate = true := by
      obtain ⟨a', b', c'', d', hhost, hprivate⟩ := h.sound.host
      simp only [Config.fields, haddr] at hhost
      obtain ⟨rfl, rfl, rfl, rfl⟩ := dottedQuad_inj hhost
      rwa [haddr]
    have h4 : c.addr.is4 = true := by rw [haddr]; rfl
    have hport : c.port ≠ 0 := fun hzero => h.sound.port (by simp [Config.fields, hzero])
    have huser := userRE_iff.mpr h.sound.username
    have hdomain := domainRE_iff.mpr h.sound.domain
    have hpassword := h.sound.password
    have hwidth := h.width
    have hheight := h.height
    have halive := h.alive
    have hlife := h.life
    have hdigest : digest.length = 32 := h.sound.digest
    simp only [Config.fields] at huser hdomain hpassword
    unfold frame
    rw [if_neg, if_neg, h.hex]
    · simp [hdigest]
    · simp only [any_eq_true, or_eq_true, decide_eq_true_eq]
      rintro ⟨b, hb, hfalse⟩
      have hrange := hpassword.2.2 b hb
      simp only [UInt8.le_iff_toNat_le, UInt8.lt_iff_toNat_lt] at hrange hfalse
      omega
    · simp only [h4, hprivate, huser, hdomain, or_eq_true, Bool.not_true, beq_iff_eq, hport,
        decide_eq_true_eq, Bool.false_eq_true, false_or]
      omega

structure Request.Carries (r : Request) (c : Config) (digest : List UInt8) : Prop where
  host : r.host = hostText c.addr
  port : r.port = c.port.toNat
  certificate : r.fingerprint = WorkerFrame.fingerprint digest
  username : r.username = c.username
  domain : r.domain = c.domain
  password : r.password = c.password
  width : (r.width : ℤ) = c.width
  height : (r.height : ℤ) = c.height
  expires : (r.expiresUnixMs : ℤ) = c.expiresAt.unixMilli

/-- Equal up to the case of the certificate's digits and fractions of a millisecond. -/
structure Config.Same (c c' : Config) : Prop where
  addr : c.addr = c'.addr
  port : c.port = c'.port
  username : c.username = c'.username
  domain : c.domain = c'.domain
  password : c.password = c'.password
  certificate : c.certificateSha256.map Hex.lowerCase = c'.certificateSha256.map Hex.lowerCase
  width : c.width = c'.width
  height : c.height = c'.height
  expires : c.expiresAt.unixMilli = c'.expiresAt.unixMilli

variable {digest digest' : List UInt8} {c' : Config} {now' : Time} {t : ℕ}

theorem Config.fits (h : c.Accepted now digest) : (c.fields digest).Fits := by
  refine h.sound.fits ?_ c.port.toNat_lt
  simp only [Config.fields]
  omega

theorem decode_frame (h : c.Accepted now digest) (hnow : now.unixMilli ≤ t)
    (hexpiry : (t : ℤ) < c.expiresAt.unixMilli) :
    ∃ r, decode (c.fields digest).body t = some r ∧ r.Carries c digest := by
  have hupper : c.expiresAt.unixMilli < 2 ^ 63 := c.expiresAt.upper
  have hexpires : ((c.fields digest).expires : ℤ) = c.expiresAt.unixMilli := by
    simp only [Config.fields]
    omega
  have hlife : c.expiresAt.unixMilli - now.unixMilli ≤ maxLifetimeMs := by
    have hnanos := h.life
    simp only [maxLifetime, Time.unixMilli, maxLifetimeMs] at hnanos ⊢
    omega
  refine ⟨_, decode_body h.sound (c.fits h).expires (c.fits h).port (by omega) (by omega), ?_⟩
  have hwidth := h.width
  have hheight := h.height
  constructor
  case expires => exact hexpires
  case width => simp only [request, Config.fields]; omega
  case height => simp only [request, Config.fields]; omega
  all_goals rfl

theorem Config.same_of_fields (h : c.Accepted now digest) (h' : c'.Accepted now' digest')
    (heq : c.fields digest = c'.fields digest') : c.Same c' := by
  obtain ⟨a, b, x, d, haddr⟩ := h.addr
  obtain ⟨a', b', x', d', haddr'⟩ := h'.addr
  have hwidth := h.width
  have hwidth' := h'.width
  have hheight := h.height
  have hheight' := h'.height
  have hlower := c.expiresAt.lower
  have hupper := c.expiresAt.upper
  have hlower' := c'.expiresAt.lower
  have hupper' := c'.expiresAt.upper
  simp only [Config.fields, Fields.mk.injEq] at heq
  obtain ⟨hexpires, hport, hw, hh, rfl, hhost, husername, hdomain, hpassword⟩ := heq
  constructor
  case addr =>
    rw [haddr, haddr', hostText, hostText] at hhost
    obtain ⟨rfl, rfl, rfl, rfl⟩ := dottedQuad_inj hhost
    rw [haddr, haddr']
  case port => exact UInt16.toNat_inj.mp hport
  case username => exact husername
  case domain => exact hdomain
  case password => exact hpassword
  case certificate => rw [Hex.lowerCase_of_decode h.hex, Hex.lowerCase_of_decode h'.hex]
  case width => omega
  case height => omega
  case expires =>
    simp only [Time.unixMilli] at hexpires ⊢
    omega

/-- The time of a number of milliseconds in 64 bits, with a fraction. -/
def Time.ofMilli (ms fraction : ℕ) (hms : ms < 256 ^ 8) (hfraction : fraction < 1000000) :
    Time where
  nanos := (if ms < 2 ^ 63 then (ms : ℤ) else ms - 2 ^ 64) * 1000000 + fraction
  lower := by split <;> omega
  upper := by split <;> omega

theorem exists_config (h : Sound f) (hexpires : f.expires < 256 ^ 8) (hport : f.port < 256 ^ 2) :
    ∃ c now, Config.Accepted c now f.digest ∧ c.fields f.digest = f := by
  obtain ⟨a, b, x, d, hhost, hprivate⟩ := h.host
  have hwidth := h.width
  have hheight := h.height
  let c : Config := ⟨.v4 a b x d, UInt16.ofNat f.port, f.username, f.domain, f.password,
    Hex.encode f.digest, f.width, f.height, Time.ofMilli f.expires 1 hexpires (by decide)⟩
  have hfields : c.fields f.digest = f := by
    have hport' : (UInt16.ofNat f.port).toNat = f.port := UInt16.toNat_ofNat_of_lt' hport
    have hmilli : ((Time.ofMilli f.expires 1 hexpires (by decide)).unixMilli % 2 ^ 64).toNat =
        f.expires := by
      simp only [Time.ofMilli, Time.unixMilli]
      split <;> omega
    have hw : ((f.width : ℤ) % 2 ^ 16).toNat = f.width := by omega
    have hh : ((f.height : ℤ) % 2 ^ 16).toNat = f.height := by omega
    simp only [c, Config.fields, hostText, hport', hmilli, hw, hh, ← hhost]
  refine ⟨c, Time.ofMilli f.expires 0 hexpires (by decide), ?_, hfields⟩
  constructor
  case hex => exact Hex.decode_encode f.digest
  case addr => exact ⟨a, b, x, d, rfl⟩
  case width => simp only [c]; omega
  case height => simp only [c]; omega
  case sound => exact hfields ▸ h
  case alive => simp only [c, Time.ofMilli]; omega
  case life => simp only [c, Time.ofMilli, maxLifetime]; omega

theorem payload_injective : Function.Injective payload := by
  intro x y h
  have hdrop := congrArg (List.drop 4) h
  rwa [payload, payload, drop_left' (length_encode ..),
    drop_left' (length_encode ..)] at hdrop

/-- The worker reads the configuration of every frame until it expires, and a body that it reads is
that of one configuration. -/
theorem worker_frame_codec :
    (∀ c now out, frame c now = some out → ∃ body digest, out = payload body ∧
        Hex.decode c.certificateSha256 = some digest ∧ ∀ t : ℕ, now.unixMilli ≤ t →
          (t : ℤ) < c.expiresAt.unixMilli → ∃ r, decode body t = some r ∧ r.Carries c digest) ∧
      ∀ body t r, decode body t = some r → ∃ c now, frame c now = some (payload body) ∧
        ∀ c' now', frame c' now' = some (payload body) → c'.Same c := by
  constructor
  · intro c now out hframe
    obtain ⟨digest, haccepted, rfl⟩ := frame_eq_some.mp hframe
    exact ⟨_, digest, rfl, haccepted.hex, fun t hnow hexpiry => decode_frame haccepted hnow hexpiry⟩
  · intro body t r hdecode
    obtain ⟨f, hsound, hexpires, hport, rfl, -⟩ := sound_of_decode hdecode
    obtain ⟨c, now, haccepted, hfields⟩ := exists_config hsound hexpires hport
    refine ⟨c, now, frame_eq_some.mpr ⟨_, haccepted, by rw [hfields]⟩, fun c' now' hframe => ?_⟩
    obtain ⟨digest', haccepted', hpayload⟩ := frame_eq_some.mp hframe
    have hbody := payload_injective hpayload
    have hsame := congrArg fields hbody
    rw [fields_body (hsound.fits hexpires hport), fields_body (c'.fits haccepted'),
      ← hfields] at hsame
    exact c'.same_of_fields haccepted' haccepted hsame.symm

def shortSession : Config where
  addr := .v4 10 0 0 5
  port := 3389
  username := bytes "vca0123456789ab"
  domain := bytes "VM"
  password := List.replicate 24 97
  certificateSha256 := List.replicate 64 65
  width := 1024
  height := 768
  expiresAt := ⟨1000000000, by decide, by decide⟩

theorem worker_frame_codec_short : ∃ out body r,
    frame shortSession ⟨0, by decide, by decide⟩ = some out ∧ out = payload body ∧
      decode body 999 = some r ∧ r.expiresUnixMs = 1000 := by
  have haccepted : shortSession.Accepted ⟨0, by decide, by decide⟩ (List.replicate 32 170) := by
    constructor
    case hex => decide
    case addr => exact ⟨10, 0, 0, 5, rfl⟩
    case width => decide
    case height => decide
    case alive => decide
    case life => decide
    case sound =>
      constructor
      case host => exact ⟨10, 0, 0, 5, rfl, by decide⟩
      case username =>
        exact ⟨bytes "0123456789ab", by decide, by decide, forall_mem_of_all (by decide)⟩
      case domain => exact ⟨by decide, by decide, forall_mem_of_all (by decide)⟩
      case password => exact ⟨by decide, by decide, forall_mem_of_all (by decide)⟩
      all_goals decide
  have hframe := frame_eq_some.mpr ⟨_, haccepted, rfl⟩
  obtain ⟨body, digest, hout, -, hdecode⟩ := worker_frame_codec.1 _ _ _ hframe
  obtain ⟨r, hr, hcarries⟩ := hdecode 999 (by decide) (by decide)
  have hexpires : (r.expiresUnixMs : ℤ) = 1000 := hcarries.expires
  exact ⟨_, body, r, hframe, hout, hr, by omega⟩

end Agreement

end VcWorkspace.Protocol.WorkerFrame
