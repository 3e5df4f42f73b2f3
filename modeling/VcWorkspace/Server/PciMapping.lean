import Mathlib.Data.List.DropRight
import VcWorkspace.Clone.Configuration
import VcWorkspace.Server.Fingerprint

/-! # PCI resource mappings

A mapping is built from the devices of the inventory, written as property strings and
read back from them. Paths get a domain and identifiers lose their marks on the way, so
what is read back is the normal form of the mapping that was built.
-/

namespace VcWorkspace.Server.PciMapping

open Transition Store Clone List

abbrev Text := List Char

def isHex (c : Char) : Bool := "0123456789abcdef".toList.contains c

def isPath (c : Char) : Bool := isHex c || c == ':' || c == '.'

/-- The letter tables of the runtime; `fold` picks one of the characters that differ in case. -/
structure Casing where
  lower : Char → Char
  fold : Char → Char
  lower_ascii : ∀ c, c.val < 128 → lower c = c.toLower
  ascii_of_lower : ∀ c, isPath (lower c) = true → c.val < 128
  fold_lower : ∀ c, c.val < 128 → fold (lower c) = fold c

section Texts

variable (k : Casing)

def trim (l : Text) : Text := ((l.dropWhile isSpace).reverse.dropWhile isSpace).reverse

def lowerText (l : Text) : Text := l.map k.lower

def equalFold (a b : Text) : Bool := a.map k.fold == b.map k.fold

/-- The pattern `^[0-9a-f]{2}:[0-9a-f]{2}(?:\.[0-7])?$`. -/
def slotPattern : Text → Bool
  | a :: b :: ':' :: c :: d :: function => [a, b, c, d].all isHex && match function with
    | [] => true
    | ['.', n] => "01234567".toList.contains n
    | _ => false
  | _ => false

/-- The pattern `^[0-9a-f]{4,}:[0-9a-f]{2}:[0-9a-f]{2}(?:\.[0-7])?$`. -/
def domainPattern (l : Text) : Bool :=
  (cut ':' l).any fun p => 4 ≤ p.1.length && p.1.all isHex && slotPattern p.2

def normalizePCIPath (v : Text) : Text :=
  let v := lowerText k (trim v)
  if slotPattern v then "0000:".toList ++ v else if domainPattern v then v else []

/-- The pattern `^[0-9a-f]{4}:[0-9a-f]{4}$`. -/
def idPattern (l : Text) : Bool :=
  (cut ':' l).any fun p => p.1.length == 4 && p.2.length == 4 && p.1.all isHex && p.2.all isHex

/-- `strings.ReplaceAll(s, "0x", "")`. -/
def removeMarks : Text → Text
  | '0' :: 'x' :: l => removeMarks l
  | c :: l => c :: removeMarks l
  | [] => []

def normalizeId (v : Text) : Text := lowerText k (removeMarks (trim v))

def itoa (n : ℤ) : Text := (toString n).toList

def atoi : Text → Option ℤ
  | '+' :: '-' :: _ => none
  | '+' :: digits => Fingerprint.parseInt (String.ofList digits)
  | s => Fingerprint.parseInt (String.ofList s)

end Texts

section Model

variable (k : Casing)

structure GPUDevice where
  node : Text
  id : Text
  vendorId : Text
  deviceId : Text
  subsystemVendorId : Text
  subsystemDeviceId : Text
  deviceClass : Text
  iommuGroup : Option Int64
  mdevCapable : Bool
  mdevTypes : List (Text × ℤ)
  assignable : Bool

structure Entry where
  node : Text
  deviceId : Text
  devicePaths : List Text
  hardwareId : Text
  subsystemId : Text
  iommuGroup : Text
  deriving DecidableEq

structure Mapping where
  id : String
  description : String
  mdev : Bool
  entries : List Entry
  deriving DecidableEq

/-- A request names a node and a device for each entry. -/
structure MappingRequest where
  id : String
  description : String
  mdev : Bool
  entries : List (Text × Text)

def trimMark : Text → Text
  | '0' :: 'x' :: l => l
  | l => l

def joinIds (vendor device : Text) : Text :=
  trimMark (lowerText k vendor) ++ ':' :: trimMark (lowerText k device)

def GPUDevice.entry (d : GPUDevice) (node : Text) : Entry where
  node := node
  deviceId := d.id
  devicePaths := [d.id]
  hardwareId := joinIds k d.vendorId d.deviceId
  subsystemId := if d.subsystemVendorId ≠ [] ∧ d.subsystemDeviceId ≠ [] then
    joinIds k d.subsystemVendorId d.subsystemDeviceId else []
  iommuGroup := (d.iommuGroup.map fun g => itoa g.toInt).getD []

def buildEntries (mdev : Bool) (online : Text → Bool) (devices : List GPUDevice) :
    List Text → List (Text × Text) → Except String (List Entry)
  | _, [] => .ok []
  | seen, requested :: rest => do
    let node := trim requested.1
    let id := lowerText k (trim requested.2)
    ensure ("Mapping node " ++ String.ofList node ++ " is not online") (online node)
    let key := node ++ '\x00' :: id
    ensure "PCI resource mapping contains a duplicate device" (!seen.contains key)
    let denied := "GPU " ++ String.ofList id ++ " on " ++ String.ofList node ++ " is not assignable"
    match devices.find? fun d => d.node == node && equalFold k d.id id with
    | none => .error denied
    | some d => do
      ensure denied (if mdev then d.mdevCapable else d.assignable && d.iommuGroup.isSome)
      let entries ← buildEntries mdev online devices (key :: seen) rest
      pure (d.entry k node :: entries)

def buildPCIResourceMapping (r : MappingRequest) (online : Text → Bool)
    (devices : List GPUDevice) : Except String Mapping := do
  let entries ← buildEntries k r.mdev online devices [] r.entries
  pure ⟨r.id, r.description, r.mdev, entries⟩

def property (p : Text × Text) : Text := p.1 ++ '=' :: p.2

def joinProperties (ps : List (Text × Text)) : Text := [','].intercalate (ps.map property)

def Entry.properties (e : Entry) : List (Text × Text) :=
  [("node".toList, e.node), ("path".toList, [';'].intercalate e.devicePaths),
    ("id".toList, e.hardwareId)] ++
  (if e.subsystemId.isEmpty then [] else [("subsystem-id".toList, e.subsystemId)]) ++
  if e.iommuGroup.isEmpty then [] else [("iommugroup".toList, e.iommuGroup)]

def formEntry (e : Entry) : Except String Text := do
  let paths := if e.devicePaths.isEmpty && !e.deviceId.isEmpty then [e.deviceId] else e.devicePaths
  let group := atoi e.iommuGroup
  let written : Entry :=
    { node := trim e.node
      deviceId := []
      devicePaths := paths.map (normalizePCIPath k)
      hardwareId := normalizeId k e.hardwareId
      subsystemId := normalizeId k e.subsystemId
      iommuGroup := if e.iommuGroup.isEmpty then [] else itoa (group.getD 0) }
  ensure "PCI resource mapping contains an invalid device path"
    (written.devicePaths.all (!·.isEmpty))
  ensure "PCI resource mapping entry is incomplete"
    (!written.node.isEmpty && !written.devicePaths.isEmpty && idPattern written.hardwareId)
  ensure "PCI resource mapping contains an invalid subsystem ID"
    (written.subsystemId.isEmpty || idPattern written.subsystemId)
  ensure "PCI resource mapping contains an invalid IOMMU group"
    (e.iommuGroup.isEmpty || group.any (0 ≤ ·))
  pure (joinProperties written.properties)

structure Form where
  mdev : Bool
  description : Option String
  map : List Text

def pciResourceMappingForm (m : Mapping) : Except String Form := do
  ensure "PCI resource mapping is invalid" (mappingPattern (trimSpace m.id) &&
    !m.entries.isEmpty && byteLength m.description.toList ≤ 256)
  let map ← m.entries.mapM (formEntry k)
  let description := trimSpace m.description
  pure ⟨m.mdev, if description = "" then none else some description, map⟩

/-- The properties of a string; a later one replaces an earlier one of its key. -/
def parsePropertyString (v : Text) : List (Text × Text) :=
  ((v.splitOn ',').filterMap fun field =>
    (cut '=' field).map fun p => (trim p.1, trim p.2)).reverse

def readEntry (raw : Text) : Entry :=
  let get (key : String) : Text := ((parsePropertyString raw).lookup key.toList).getD []
  let nonempty (paths : List Text) := (paths.map (normalizePCIPath k)).filter (!·.isEmpty)
  let paths := nonempty ((get "path").splitOn ';')
  let paths := if paths.isEmpty then nonempty [get "id"] else paths
  { node := get "node"
    deviceId := paths.headD []
    devicePaths := paths
    hardwareId := lowerText k (get "id")
    subsystemId := lowerText k (get "subsystem-id")
    iommuGroup := get "iommugroup" }

/-- A mapping in the answer of the cluster; the flag is the text of a JSON value. -/
structure Item where
  id : String
  description : String
  mdev : String
  map : List Text

def Item.flag (i : Item) : Bool := ["1", "true", "\"1\""].contains (trimSpace i.mdev)

def readItem (i : Item) : Except String Mapping := do
  let entries ← i.map.mapM fun raw => do
    let e := readEntry k raw
    ensure ("PCI resource mapping \"" ++ i.id ++ "\" contains an incomplete entry")
      (!e.node.isEmpty && !e.deviceId.isEmpty)
    pure e
  pure ⟨i.id, i.description, i.flag, entries⟩

def pciResourceMappings (items : List Item) : Except String (List Mapping) := do
  let mappings ← items.mapM (readItem k)
  pure (mappings.mergeSort fun a b => a.id ≤ b.id)

inductive GpuMode
  | none | pciPassthrough | mdev | other
  deriving DecidableEq

structure GPUProfile where
  mode : GpuMode
  vendorId : Text
  deviceClass : Text
  resourceMapping : String
  mdevType : Text

def pciPathContainsDevice (path id : Text) : Bool :=
  equalFold k path id || (!((lowerText k path).rtakeWhile (· != ':')).contains '.' &&
    (lowerText k path ++ ['.']).isPrefixOf (lowerText k id))

def mappingEntryContainsDevice (e : Entry) (id : Text) : Bool :=
  pciPathContainsDevice k e.deviceId id || e.devicePaths.any (pciPathContainsDevice k · id)

def GPUProfile.usable (p : GPUProfile) (d : GPUDevice) : Bool :=
  match p.mode with
  | .pciPassthrough => d.assignable
  | .mdev => d.mdevTypes.any fun t => t.1 == p.mdevType && 0 < t.2
  | _ => false

def gpuPlacementAvailable (p : GPUProfile) (node : Text) (mappings : List Mapping)
    (devices : List GPUDevice) : Bool :=
  p.mode == .none || mappings.any fun m =>
    m.id == p.resourceMapping && (p.mode == .mdev) == m.mdev && m.entries.any fun e =>
      e.node == node && devices.any fun d =>
        (p.vendorId.isEmpty || equalFold k p.vendorId d.vendorId) &&
        (p.deviceClass.isEmpty || equalFold k p.deviceClass d.deviceClass) &&
        d.node == node && mappingEntryContainsDevice k e d.id && p.usable d

end Model

section Normal

variable {k : Casing} {c : Char} {l v : Text}

theorem plain_of_path (h : isPath c = true) :
    c ≠ ',' ∧ c ≠ ';' ∧ isSpace c = false ∧ c.val < 128 ∧ c.toLower = c := by
  have hall : "0123456789abcdef:.".toList.all (fun c => c != ',' && c != ';' && !isSpace c &&
      decide (c.val < 128) && c.toLower == c) = true := by decide
  have hmem : c ∈ "0123456789abcdef:.".toList := by
    simpa [isPath, isHex, or_assoc] using h
  simpa [and_assoc] using all_eq_true.mp hall c hmem

def IsPath (l : Text) : Prop := ∀ c ∈ l, isPath c = true

theorem IsPath.lowerText (h : IsPath l) : lowerText k l = l := by
  refine (map_congr_left fun c hc => ?_).trans (map_id l)
  obtain ⟨-, -, -, hascii, hlower⟩ := plain_of_path (h c hc)
  exact (k.lower_ascii c hascii).trans hlower

theorem trim_of_plain (h : ∀ c ∈ l, isSpace c = false) : trim l = l := by
  have hdrop {l : Text} (h : ∀ c ∈ l, isSpace c = false) : l.dropWhile isSpace = l := by
    cases l with
    | nil => rfl
    | cons c l => rw [dropWhile_cons, h c mem_cons_self, if_neg Bool.false_ne_true]
  rw [trim, hdrop h, hdrop fun c hc => h c (mem_reverse.mp hc), reverse_reverse]

theorem trim_trim (l : Text) : trim (trim l) = trim l := by
  obtain ⟨rest, hrest⟩ : trim l <+: l.dropWhile isSpace := by
    rw [← reverse_suffix, trim, reverse_reverse]
    exact dropWhile_suffix _
  have hhead : (trim l).dropWhile isSpace = trim l := by
    cases htrim : trim l with
    | nil => rfl
    | cons c r =>
      have hnot := head?_dropWhile_not isSpace l
      rw [← hrest, htrim, cons_append, head?_cons] at hnot
      rw [dropWhile_cons, hnot, if_neg Bool.false_ne_true]
  rw [trim, hhead, trim, reverse_reverse, dropWhile_idempotent]

theorem IsPath.plain (h : IsPath l) : ',' ∉ l ∧ ';' ∉ l ∧ trim l = l :=
  ⟨fun hc => (plain_of_path (h _ hc)).1 rfl, fun hc => (plain_of_path (h _ hc)).2.1 rfl,
    trim_of_plain fun c hc => (plain_of_path (h c hc)).2.2.1⟩

theorem isPath_of_hex (h : ∀ c ∈ l, isHex c = true) : IsPath l := fun c hc => by
  simp [isPath, h c hc]

theorem isPath_of_slot (h : slotPattern l = true) : IsPath l := by
  unfold slotPattern at h
  split at h
  next a b c d function =>
    simp only [Bool.and_eq_true, all_eq_true] at h
    have hfunction : IsPath function := by
      have h := h.2
      split at h
      · exact nofun
      next n _ =>
        have hdigit : ("01234567".toList.all isPath) = true := by decide
        exact forall_mem_cons.mpr ⟨rfl, forall_mem_singleton.mpr
          (all_eq_true.mp hdigit n (contains_iff_mem.mp h))⟩
      · cases h
    have hhex := isPath_of_hex h.1
    simp only [IsPath, forall_mem_cons] at hhex ⊢
    exact ⟨hhex.1, hhex.2.1, rfl, hhex.2.2.1, hhex.2.2.2.1, hfunction⟩
  · cases h

theorem isPath_append {domain rest : Text} (h : IsPath domain) (h' : IsPath rest) :
    IsPath (domain ++ ':' :: rest) :=
  forall_mem_append.mpr ⟨h, forall_mem_cons.mpr ⟨rfl, h'⟩⟩

theorem domain_cases (h : domainPattern l = true) : IsPath l ∧ slotPattern l = false := by
  obtain ⟨⟨domain, rest⟩, hcut, h⟩ := (Option.any_eq_true _ _).mp h
  simp only [Bool.and_eq_true, decide_eq_true_eq, all_eq_true] at h
  obtain ⟨⟨hlength, hhex⟩, hslot⟩ := h
  rw [eq_of_cut hcut]
  refine ⟨isPath_append (isPath_of_hex hhex) (isPath_of_slot hslot), ?_⟩
  -- the third character of a slot is a colon
  match domain with
  | a :: b :: c :: domain =>
    have hc : c ≠ ':' := by
      rintro rfl
      exact absurd (hhex ':' (by simp)) (by decide)
    simp only [cons_append]
    unfold slotPattern
    split
    next heq => exact absurd (by simp_all) hc
    · rfl
  | [] | [_] | [_, _] => simp at hlength

theorem isPath_of_id (h : idPattern l = true) : IsPath l := by
  obtain ⟨⟨vendor, device⟩, hcut, h⟩ := (Option.any_eq_true _ _).mp h
  simp only [Bool.and_eq_true, all_eq_true] at h
  rw [eq_of_cut hcut]
  exact isPath_append (isPath_of_hex h.1.2) (isPath_of_hex h.2)

theorem domain_normalizePCIPath (h : normalizePCIPath k v ≠ []) :
    domainPattern (normalizePCIPath k v) = true := by
  simp only [normalizePCIPath] at h ⊢
  split
  next hslot =>
    have hcut : cut ':' ("0000".toList ++ ':' :: lowerText k (trim v)) = _ :=
      cut_append (by decide)
    exact (congrArg _ hcut).trans hslot
  next hslot =>
    rw [if_neg hslot] at h
    split at h
    next hdomain => rwa [if_pos hdomain]
    · exact absurd rfl h

theorem normalizePCIPath_of_domain (h : domainPattern l = true) : normalizePCIPath k l = l := by
  obtain ⟨hpath, hslot⟩ := domain_cases h
  rw [normalizePCIPath, hpath.plain.2.2, hpath.lowerText, hslot, h]
  rfl

end Normal

section Numbers

variable {n : ℤ} {c : Char}

theorem isPath_of_digit (h : c.isDigit = true) : isPath c = true := by
  have hbounds : 48 ≤ c.toNat ∧ c.toNat ≤ 57 := by
    simpa [Char.isDigit, UInt32.le_iff_toNat_le] using h
  have hall : (range' 48 10).all (fun n => isPath (Char.ofNat n)) = true := by decide
  have hc := all_eq_true.mp hall c.toNat (mem_range'_1.mpr (by omega))
  rwa [Char.ofNat_toNat] at hc

theorem itoa_cases (n : ℤ) : ∃ digits : Text, (∀ c ∈ digits, c.isDigit = true) ∧
    Fingerprint.parseDigits digits = some n.natAbs ∧
    itoa n = if n < 0 then '-' :: digits else digits := by
  have hdigit (c : Char) (hc : c ∈ Nat.toDigits 10 n.natAbs) : c.isDigit = true :=
    Nat.isDigit_of_mem_toDigits (by decide) (by decide) hc
  refine ⟨Nat.toDigits 10 n.natAbs, hdigit, ?_, ?_⟩
  · have hvalue := @Nat.ofDigitChars_ten_toDigits n.natAbs
    rw [Nat.ofDigitChars_eq_foldl] at hvalue
    rw [Fingerprint.parseDigits, all_eq_true.mpr hdigit, if_neg (by simp [Nat.toDigits_ne_nil])]
    exact congrArg some hvalue
  · have hrepr (m : ℕ) : m.repr.toList = Nat.toDigits 10 m := by
      rw [Nat.repr_eq_ofList_toDigits, String.toList_ofList]
    cases n with
    | ofNat m => exact hrepr m
    | negSucc m =>
      rw [if_pos (Int.negSucc_lt_zero m)]
      exact String.toList_append.trans (congrArg ('-' :: ·) (hrepr (m + 1)))

theorem mem_itoa (h : c ∈ itoa n) : c = '-' ∨ isPath c = true := by
  obtain ⟨digits, hdigits, -, htext⟩ := itoa_cases n
  rw [htext] at h
  split at h
  · exact (mem_cons.mp h).imp_right fun h => isPath_of_digit (hdigits c h)
  · exact .inr (isPath_of_digit (hdigits c h))

theorem plain_itoa : ',' ∉ itoa n ∧ trim (itoa n) = itoa n := by
  refine ⟨fun h => absurd (mem_itoa h) (by decide), trim_of_plain fun c hc => ?_⟩
  rcases mem_itoa hc with rfl | hpath
  · decide
  · exact (plain_of_path hpath).2.2.1

theorem atoi_itoa (hlo : -2 ^ 63 ≤ n) (hhi : n < 2 ^ 63) : atoi (itoa n) = some n := by
  have hplus : atoi (itoa n) = Fingerprint.parseInt (String.ofList (itoa n)) := by
    unfold atoi
    split
    next heq => exact absurd (mem_itoa (heq ▸ mem_cons_self)) (by decide)
    next heq => exact absurd (mem_itoa (heq ▸ mem_cons_self)) (by decide)
    · rfl
  obtain ⟨digits, hdigits, hvalue, htext⟩ := itoa_cases n
  rw [hplus, Fingerprint.parseInt, String.toList_ofList]
  refine Option.filter_eq_some_iff.mpr ⟨?_, ?_⟩
  · by_cases hn : n < 0
    · have habs : -(n.natAbs : ℤ) = n := by omega
      simp only [htext, if_pos hn, hvalue, Option.bind_eq_bind, Option.bind_some, Option.pure_def,
        Option.map_some, habs]
    · have habs : (n.natAbs : ℤ) = n := by omega
      rw [htext, if_neg hn]
      split
      · exact absurd (hdigits '-' mem_cons_self) (by decide)
      · simp only [hvalue, Option.bind_eq_bind, Option.bind_some, Option.pure_def, Option.map_some,
          habs]
  · exact Bool.and_eq_true_iff.mpr ⟨decide_eq_true hlo, decide_eq_true hhi⟩

end Numbers

section RoundTrip

variable {k : Casing} {e : Entry} {raw : Text}

def Entry.normalized (k : Casing) (e : Entry) : Entry :=
  { e with
    deviceId := normalizePCIPath k e.deviceId
    devicePaths := e.devicePaths.map (normalizePCIPath k)
    hardwareId := normalizeId k e.hardwareId
    subsystemId := normalizeId k e.subsystemId }

/-- What every entry has that was built. -/
structure Built (e : Entry) : Prop where
  node : trim e.node = e.node
  paths : e.devicePaths = [e.deviceId]
  group : e.iommuGroup = [] ∨ ∃ g : Int64, e.iommuGroup = itoa g.toInt

theorem built_of_buildEntries {mdev : Bool} {online : Text → Bool} {devices : List GPUDevice}
    {seen : List Text} {requested : List (Text × Text)} {entries : List Entry}
    (h : buildEntries k mdev online devices seen requested = .ok entries) :
    ∀ e ∈ entries, Built e := by
  induction requested generalizing seen entries with
  | nil =>
    cases h
    exact nofun
  | cons r rest ih =>
    simp only [buildEntries, seq_eq_ok] at h
    obtain ⟨-, -, h⟩ := h
    split at h
    · cases h
    next d _ =>
      rw [seq_eq_ok] at h
      obtain ⟨tail, htail, h⟩ := bind_eq_ok.mp h.2
      cases h
      refine forall_mem_cons.mpr ⟨⟨trim_trim r.1, rfl, ?_⟩, ih htail⟩
      cases hg : d.iommuGroup with
      | none => exact .inl (by simp [GPUDevice.entry, hg])
      | some g => exact .inr ⟨g, by simp [GPUDevice.entry, hg]⟩

/-- The entries that are written. -/
structure Normal (e : Entry) : Prop where
  node : e.node ≠ [] ∧ ',' ∉ e.node ∧ trim e.node = e.node
  device : domainPattern e.deviceId = true
  paths : e.devicePaths = [e.deviceId]
  hardware : idPattern e.hardwareId = true
  subsystem : e.subsystemId = [] ∨ idPattern e.subsystemId = true
  group : ',' ∉ e.iommuGroup ∧ trim e.iommuGroup = e.iommuGroup

theorem Normal.device_ne_nil (h : Normal e) : e.deviceId.isEmpty = false := by
  rw [isEmpty_eq_false_iff]
  intro hnil
  have hdomain := h.device
  rw [hnil] at hdomain
  cases hdomain

/-- A property that is the same after it was split off and trimmed. -/
structure Splits (key v : Text) : Prop where
  key : ',' ∉ key ∧ '=' ∉ key ∧ trim key = key
  value : ',' ∉ v ∧ trim v = v

theorem parsePropertyString_join {ps : List (Text × Text)} (hne : ps ≠ [])
    (h : ∀ p ∈ ps, Splits p.1 p.2) : parsePropertyString (joinProperties ps) = ps.reverse := by
  have hsplit : (joinProperties ps).splitOn ',' = ps.map property := by
    refine splitOn_intercalate ',' ?_ (by simpa using hne)
    simp only [forall_mem_map, property, mem_append, mem_cons, not_or]
    exact fun p hp => ⟨(h p hp).key.1, by decide, (h p hp).value.1⟩
  rw [parsePropertyString, hsplit, filterMap_map]
  refine congrArg _ ((filterMap_congr fun p hp => ?_).trans (filterMap_some))
  obtain ⟨⟨-, heq, hkey⟩, -, hvalue⟩ := h p hp
  simp [property, cut_append heq, hkey, hvalue]

theorem Normal.splits (h : Normal e) : ∀ p ∈ e.properties, Splits p.1 p.2 := by
  have hpath : [';'].intercalate e.devicePaths = e.deviceId := by
    rw [h.paths, intercalate_singleton]
  have hdevice := (domain_cases h.device).1.plain
  have hhardware := (isPath_of_id h.hardware).plain
  simp only [Entry.properties, forall_mem_append, forall_mem_cons, hpath]
  refine ⟨⟨⟨⟨by decide, h.node.2⟩, ⟨by decide, hdevice.1, hdevice.2.2⟩,
    ⟨by decide, hhardware.1, hhardware.2.2⟩, nofun⟩, ?_⟩, ?_⟩
  · split
    · exact nofun
    next hne =>
      have hsubsystem := (isPath_of_id (h.subsystem.resolve_left (by simpa using hne))).plain
      have hsplits : Splits "subsystem-id".toList e.subsystemId :=
        ⟨by decide, hsubsystem.1, hsubsystem.2.2⟩
      exact forall_mem_singleton.mpr hsplits
  · split
    · exact nofun
    · have hsplits : Splits "iommugroup".toList e.iommuGroup := ⟨by decide, h.group⟩
      exact forall_mem_singleton.mpr hsplits

theorem lookup_properties (e : Entry) :
    (e.properties.reverse.lookup "node".toList).getD [] = e.node ∧
    (e.properties.reverse.lookup "path".toList).getD [] = [';'].intercalate e.devicePaths ∧
    (e.properties.reverse.lookup "id".toList).getD [] = e.hardwareId ∧
    (e.properties.reverse.lookup "subsystem-id".toList).getD [] = e.subsystemId ∧
    (e.properties.reverse.lookup "iommugroup".toList).getD [] = e.iommuGroup := by
  rcases e with ⟨_, _, _, _, _ | _, _ | _⟩ <;> exact ⟨rfl, rfl, rfl, rfl, rfl⟩

theorem readEntry_properties (h : Normal e) : readEntry k (joinProperties e.properties) = e := by
  obtain ⟨hnode, hpath, hhardware, hsubsystem, hgroup⟩ := lookup_properties e
  have hparse : parsePropertyString (joinProperties e.properties) = e.properties.reverse :=
    parsePropertyString_join (cons_ne_nil _ _) h.splits
  have hsplit : ([';'].intercalate e.devicePaths).splitOn ';' = [e.deviceId] := by
    rw [h.paths]
    exact splitOn_intercalate ';'
      (forall_mem_singleton.mpr (domain_cases h.device).1.plain.2.1) (cons_ne_nil _ _)
  have hne := h.device_ne_nil
  have hsub : lowerText k e.subsystemId = e.subsystemId := by
    rcases h.subsystem with hnil | hid
    · rw [hnil]
      rfl
    · exact (isPath_of_id hid).lowerText
  simp only [readEntry, hparse, hnode, hpath, hhardware, hsubsystem, hgroup, hsplit, hsub,
    map_singleton, normalizePCIPath_of_domain h.device, (isPath_of_id h.hardware).lowerText,
    filter_cons, hne, Bool.not_false, if_true, filter_nil, isEmpty_cons,
    if_neg Bool.false_ne_true, headD_cons]
  rw [← h.paths]

theorem formEntry_ok (hb : Built e) (hnode : ',' ∉ e.node) (h : formEntry k e = .ok raw) :
    Normal (e.normalized k) ∧ raw = joinProperties (e.normalized k).properties := by
  have hpath : (if e.devicePaths.isEmpty && !e.deviceId.isEmpty then [e.deviceId]
      else e.devicePaths) = [e.deviceId] := by
    simp [hb.paths]
  have hgroup : (',' ∉ e.iommuGroup ∧ trim e.iommuGroup = e.iommuGroup) ∧
      (if e.iommuGroup.isEmpty then [] else itoa ((atoi e.iommuGroup).getD 0)) = e.iommuGroup := by
    rcases hb.group with hg | ⟨g, hg⟩
    · rw [hg]
      exact ⟨⟨nofun, rfl⟩, rfl⟩
    · rw [hg, atoi_itoa g.le_toInt g.toInt_lt]
      refine ⟨plain_itoa, ?_⟩
      split
      next hempty => rw [isEmpty_iff.mp hempty]
      · rfl
  simp only [formEntry, seq_eq_ok, ensure_eq_ok, hpath, hgroup.2, hb.node] at h
  obtain ⟨hpaths, hcomplete, hsubsystem, -, h⟩ := h
  cases h
  simp only [map_singleton, all_cons, all_nil, Bool.and_true, Bool.and_eq_true,
    Bool.or_eq_true, Bool.not_eq_true', List.isEmpty_eq_false_iff, List.isEmpty_iff] at *
  refine ⟨⟨⟨hcomplete.1.1, hnode, hb.node⟩, domain_normalizePCIPath hpaths, ?_, hcomplete.2,
    hsubsystem, hgroup.1⟩, ?_⟩
  · simp [Entry.normalized, hb.paths]
  · rw [Entry.normalized, hb.paths]
    rfl

theorem mapM_formEntry {entries : List Entry} {raws : List Text}
    (hb : ∀ e ∈ entries, Built e ∧ ',' ∉ e.node) (h : entries.mapM (formEntry k) = .ok raws) :
    raws.map (readEntry k) = entries.map (·.normalized k) ∧
      ∀ raw ∈ raws, Normal (readEntry k raw) := by
  induction entries generalizing raws with
  | nil =>
    cases h
    exact ⟨rfl, nofun⟩
  | cons e rest ih =>
    rw [mapM_cons] at h
    obtain ⟨raw, hraw, h⟩ := bind_eq_ok.mp h
    obtain ⟨tail, htail, h⟩ := bind_eq_ok.mp h
    cases h
    obtain ⟨⟨hbuilt, hnode⟩, hb⟩ := forall_mem_cons.mp hb
    obtain ⟨hnormal, rfl⟩ := formEntry_ok hbuilt hnode hraw
    obtain ⟨hread, hrest⟩ := ih hb htail
    rw [map_cons, hread, readEntry_properties hnormal]
    refine ⟨rfl, forall_mem_cons.mpr ⟨?_, hrest⟩⟩
    rw [readEntry_properties hnormal]
    exact hnormal

theorem readItem_of_normal {i : Item} (h : ∀ raw ∈ i.map, Normal (readEntry k raw)) :
    ∃ m, readItem k i = .ok m ∧ m.id = i.id ∧ m.mdev = i.flag ∧
      m.entries = i.map.map (readEntry k) := by
  have hmap {l : List Text} (h : ∀ raw ∈ l, Normal (readEntry k raw)) :
      l.mapM (fun raw => do
        let e := readEntry k raw
        ensure ("PCI resource mapping \"" ++ i.id ++ "\" contains an incomplete entry")
          (!e.node.isEmpty && !e.deviceId.isEmpty)
        pure e) = .ok (l.map (readEntry k)) := by
    induction l with
    | nil => rfl
    | cons raw l ih =>
      obtain ⟨hraw, h⟩ := forall_mem_cons.mp h
      have hnode := isEmpty_eq_false_iff.mpr hraw.node.1
      have hdevice := hraw.device_ne_nil
      rw [mapM_cons, ih h]
      simp only [hnode, hdevice]
      rfl
  refine ⟨⟨i.id, i.description, i.flag, i.map.map (readEntry k)⟩, ?_, rfl, by simp only, rfl⟩
  rw [readItem, hmap h]
  rfl

end RoundTrip

section Placement

variable {k : Casing} {e : Entry} {p : GPUProfile} {path id : Text}

/-- The path has a domain and nothing around it. -/
def Canonical (k : Casing) (path : Text) : Prop := lowerText k path = normalizePCIPath k path

theorem pciPathContainsDevice_normalized (h : Canonical k path)
    (hne : normalizePCIPath k path ≠ []) (id : Text) :
    pciPathContainsDevice k (normalizePCIPath k path) id = pciPathContainsDevice k path id := by
  have hpath := (domain_cases (domain_normalizePCIPath hne)).1
  have hfold : (normalizePCIPath k path).map k.fold = path.map k.fold := by
    rw [← h, lowerText, map_map]
    refine map_congr_left fun c hc => k.fold_lower c (k.ascii_of_lower c ?_)
    refine hpath _ ?_
    rw [← h]
    exact mem_map_of_mem hc
  rw [pciPathContainsDevice, pciPathContainsDevice, equalFold, hfold, hpath.lowerText, h]
  rfl

end Placement

/-- A mapping that was written is read back in normal form among any others, its devices are found
if their identifiers have a domain, and its options are recognised in every order. -/
theorem pci_mapping_round_trip (k : Casing) {r : MappingRequest} {online : Text → Bool}
    {inventory : List GPUDevice} {m : Mapping} {f : Form} {item : Item}
    (hbuild : buildPCIResourceMapping k r online inventory = .ok m)
    (hnode : ∀ e ∈ m.entries, ',' ∉ e.node) (hform : pciResourceMappingForm k m = .ok f)
    (hid : item.id = m.id) (hflag : item.flag = f.mdev) (hmap : item.map.Perm f.map) :
    (∀ others ms, pciResourceMappings k others = .ok ms → ∃ m' ms',
      pciResourceMappings k (item :: others) = .ok ms' ∧ ms'.Perm (m' :: ms) ∧ m'.id = m.id ∧
      m'.mdev = m.mdev ∧ m'.entries.Perm (m.entries.map (·.normalized k)) ∧
      ((∀ e ∈ m.entries, Canonical k e.deviceId) → ∀ p node devices,
        gpuPlacementAvailable k p node ms' devices =
          gpuPlacementAvailable k p node (m :: ms) devices)) ∧
    (∀ e ∈ m.entries, Canonical k e.deviceId → ∀ id,
      pciPathContainsDevice k (normalizePCIPath k e.deviceId) id =
        pciPathContainsDevice k e.deviceId id) ∧
    (∀ node vmid mapping digest u, configureVMPCIResourceMapping node vmid mapping digest = .ok u →
      ∃ written, u.setting = .hostpci0 written ∧ ∀ raw,
        matchesGPUResourceMapping raw (trimSpace mapping) "" = true ↔
          (options raw).Perm (options written)) ∧
    ∀ node vmid mapping mdev digest u,
      configureVMMDevResourceMapping node vmid mapping mdev digest = .ok u →
        ∃ written, u.setting = .hostpci0 written ∧ ∀ raw,
          matchesGPUResourceMapping raw (trimSpace mapping) (trimSpace mdev) = true ↔
            (options raw).Perm (options written) := by
  obtain ⟨entries, hentries, hm⟩ := bind_eq_ok.mp hbuild
  cases hm
  have hbuilt := built_of_buildEntries hentries
  simp only [pciResourceMappingForm, seq_eq_ok] at hform
  obtain ⟨raws, hraws, hf⟩ := bind_eq_ok.mp hform.2
  cases hf
  obtain ⟨hread, hnormal⟩ := mapM_formEntry (fun e he => ⟨hbuilt e he, hnode e he⟩) hraws
  obtain ⟨m', hitem, hid', hmdev, hentries'⟩ :=
    readItem_of_normal fun raw hraw => hnormal raw (hmap.mem_iff.mp hraw)
  have hperm : m'.entries.Perm (entries.map (·.normalized k)) :=
    hentries' ▸ (hmap.map (readEntry k)).trans (.of_eq hread)
  have hpath (e : Entry) (he : e ∈ entries) : normalizePCIPath k e.deviceId ≠ [] := by
    have hmem : e.normalized k ∈ raws.map (readEntry k) := hread ▸ mem_map_of_mem he
    obtain ⟨raw, hraw, hnormalized⟩ := mem_map.mp hmem
    have hne := (hnormal raw hraw).device_ne_nil
    rw [hnormalized] at hne
    exact isEmpty_eq_false_iff.mp hne
  have hcontains (e : Entry) (he : e ∈ entries) (hc : Canonical k e.deviceId) :=
    pciPathContainsDevice_normalized hc (hpath e he)
  refine ⟨fun others ms hothers => ?_, fun e he => hcontains e he, ?_, ?_⟩
  · obtain ⟨rest, hrest, hms⟩ := bind_eq_ok.mp hothers
    cases hms
    have hafter := (mergeSort_perm (m' :: rest) fun a b => a.id ≤ b.id).trans
      ((mergeSort_perm rest fun a b => a.id ≤ b.id).symm.cons m')
    have hid' := hid'.trans hid
    have hmdev := hmdev.trans hflag
    refine ⟨m', _, ?_, hafter, hid', hmdev, hperm, fun hc p node devices => ?_⟩
    · rw [pciResourceMappings, mapM_cons, hitem, hrest]
      rfl
    rw [gpuPlacementAvailable, gpuPlacementAvailable, hafter.any_eq, any_cons, any_cons, hid',
      hmdev, hperm.any_eq, any_map]
    congr 3
    rw [Bool.eq_iff_iff, any_eq_true, any_eq_true]
    refine exists_congr fun e => and_congr_right fun he => ?_
    have hsame (id : Text) : mappingEntryContainsDevice k (e.normalized k) id =
        mappingEntryContainsDevice k e id := by
      rw [mappingEntryContainsDevice, mappingEntryContainsDevice, Entry.normalized,
        (hbuilt e he).paths]
      simp only [map_singleton, any_cons, hcontains e he (hc e he)]
    simp only [Function.comp_apply, hsame]
    rfl
  · intro node vmid mapping digest u hu
    simp only [configureVMPCIResourceMapping, seq_eq_ok, ensure_eq_ok,
      Bool.and_eq_true] at hu
    obtain ⟨⟨⟨-, hpattern⟩, -⟩, hu⟩ := hu
    cases hu
    exact ⟨_, rfl, fun raw => matches_iff_pci hpattern⟩
  · intro node vmid mapping mdev digest u hu
    simp only [configureVMMDevResourceMapping, seq_eq_ok, ensure_eq_ok,
      Bool.and_eq_true] at hu
    obtain ⟨⟨⟨⟨-, hpattern⟩, hpattern'⟩, -⟩, hu⟩ := hu
    cases hu
    exact ⟨_, rfl, fun raw => matches_iff_mdev hpattern hpattern'⟩

def asciiCasing : Casing where
  lower := Char.toLower
  fold := Char.toLower
  lower_ascii _ _ := rfl
  ascii_of_lower c h := by
    have hlower := (plain_of_path h).2.2.2.1
    unfold Char.toLower at hlower
    split at hlower
    next hupper => exact UInt32.lt_of_le_of_lt hupper.2 (by decide)
    · exact hlower
  fold_lower c _ := by
    unfold Char.toLower
    split
    next hupper =>
      rw [dif_neg]
      simp only [ge_iff_le, UInt32.le_iff_toNat_le] at hupper ⊢
      simp at hupper ⊢
      omega
    · rfl

def sampleRequest (ids : List String) : MappingRequest :=
  ⟨"gpu", "", true, ids.map fun id => ("n".toList, id.toList)⟩

def sampleDevice (id : String) : GPUDevice :=
  { node := "n".toList
    id := id.toList
    vendorId := "0x10de".toList
    deviceId := "0x2684".toList
    subsystemVendorId := []
    subsystemDeviceId := []
    deviceClass := "0x030000".toList
    iommuGroup := none
    mdevCapable := true
    mdevTypes := [("a".toList, 1)]
    assignable := false }

def sampleItem (id : String) (paths : List String) : Item where
  id := id
  description := ""
  mdev := "1"
  map := paths.map fun path => ("node=n,path=" ++ path ++ ",id=10de:2684").toList

def sampleProfile : GPUProfile := ⟨.mdev, [], [], "gpu", "a".toList⟩

def sampleMapping (id : String) (paths : List String) : Mapping :=
  ⟨id, "", true, paths.map fun path => (sampleDevice path).entry asciiCasing "n".toList⟩

/-- The devices of a domain are found before and after, in another order and beside a mapping of
other devices. -/
theorem pci_mapping_round_trip_domain : let other := sampleItem "other" ["0000:03:00.0"]
    ∃ m' o ms', pciResourceMappings asciiCasing [other] = .ok [o] ∧
      pciResourceMappings asciiCasing
        [sampleItem "gpu" ["0000:02:00.0", "0000:01:00.0"], other] = .ok ms' ∧
      ms'.Perm [m', o] ∧
      gpuPlacementAvailable asciiCasing sampleProfile "n".toList ms'
        [sampleDevice "0000:02:00.0"] = true := by
  intro other
  have hbuild : buildPCIResourceMapping asciiCasing (sampleRequest ["0000:01:00.0", "0000:02:00.0"])
      (fun _ => true) [sampleDevice "0000:01:00.0", sampleDevice "0000:02:00.0"] =
        .ok (sampleMapping "gpu" ["0000:01:00.0", "0000:02:00.0"]) := rfl
  obtain ⟨o, hother⟩ : ∃ o, pciResourceMappings asciiCasing [other] = .ok [o] :=
    ⟨_, congrArg _ (mergeSort_singleton _)⟩
  obtain ⟨m', ms', hread, hperm, -, -, -, hplace⟩ :=
    (@pci_mapping_round_trip asciiCasing _ _ _ _ _
      (sampleItem "gpu" ["0000:02:00.0", "0000:01:00.0"]) hbuild (by decide) rfl rfl rfl
      (.swap _ _ _)).1 [other] [o] hother
  have hcanonical : ∀ e ∈ (sampleMapping "gpu" ["0000:01:00.0", "0000:02:00.0"]).entries,
      Canonical asciiCasing e.deviceId := by
    simp only [sampleMapping, map_cons, map_nil, forall_mem_cons]
    exact ⟨rfl, rfl, forall_mem_nil _⟩
  exact ⟨m', o, ms', hother, hread, hperm, hplace hcanonical _ _ _⟩

/-- A path without a domain is written with one, so that its device is no longer found. -/
theorem short_path_is_lost : let read := sampleItem "gpu" ["0000:01:00.0"]
    ∃ m f m', buildPCIResourceMapping asciiCasing (sampleRequest ["01:00.0"]) (fun _ => true)
        [sampleDevice "01:00.0"] = .ok m ∧
      pciResourceMappingForm asciiCasing m = .ok f ∧ f.map = read.map ∧
      pciResourceMappings asciiCasing [read] = .ok [m'] ∧
      gpuPlacementAvailable asciiCasing sampleProfile "n".toList [m] [sampleDevice "01:00.0"] =
        true ∧
      gpuPlacementAvailable asciiCasing sampleProfile "n".toList [m'] [sampleDevice "01:00.0"] =
        false :=
  ⟨sampleMapping "gpu" ["01:00.0"], _, _, rfl, rfl, rfl, congrArg _ (mergeSort_singleton _), rfl,
    rfl⟩

end VcWorkspace.Server.PciMapping
