import Mathlib.Algebra.GroupWithZero.Nat
import Mathlib.Data.List.Nodup
import Mathlib.Data.List.Perm.Basic
import VcWorkspace.Store.AccessTables

/-! # Configurations of virtual machines

What the service reads of the configuration of a clone and what it writes to it.
A write names the digest of the configuration that it was decided on. The options
of a device come back in any order, so they are compared as a set.
-/

namespace VcWorkspace.Clone

open Store List

section Model

/-- A configuration; the maps hold the settings of one kind by their names. -/
structure VMConfiguration where
  description : String
  lock : String
  template : Bool
  name : String
  osType : String
  disks : List (String × String)
  networkAdapters : List (String × String)
  pciHostDevices : List (String × String)
  ipConfigs : List (String × String)
  /-- The settings that the service does not look at here. -/
  others : List (String × String)
  deriving DecidableEq, Repr

def value (m : List (String × String)) (key : String) : String := (m.lookup key).getD ""

def setValue (m : List (String × String)) (key v : String) : List (String × String) :=
  (key, v) :: m.filter (·.1 != key)

def cut (c : Char) : List Char → Option (List Char × List Char)
  | [] => none
  | d :: l => if d = c then some ([], l) else (cut c l).map fun p => (d :: p.1, p.2)

/-- The length of a text in UTF-8. -/
def byteLength (l : List Char) : ℕ := (l.map Char.utf8Size).sum

def VMConfiguration.hasCloudInitDisk (c : VMConfiguration) : Bool :=
  c.disks.any fun disk =>
    let volume := ((cut ',' disk.2.toList).map Prod.fst).getD disk.2.toList
    "-cloudinit".toList.isSuffixOf volume || ":cloudinit".toList.isSuffixOf volume

/-- The pattern `^[0-9a-fA-F]{40}$`. -/
def validConfigurationDigest (digest : String) : Bool :=
  digest.toList.length == 40 && digest.toList.all fun c => c.isDigit ||
    ('a' ≤ c && c ≤ 'f') || ('A' ≤ c && c ≤ 'F')

/-- The pattern `^[A-Za-z][A-Za-z0-9_-]{0,63}$`. -/
def mappingPattern (mapping : String) : Bool :=
  mapping.toList.head?.any Char.isAlpha && mapping.toList.length ≤ 64 &&
    mapping.toList.all fun c => c.isAlphanum || c == '_' || c == '-'

/-- The pattern `^[A-Za-z0-9][A-Za-z0-9_.-]{0,127}$`. -/
def mdevPattern (mdev : String) : Bool :=
  mdev.toList.head?.any Char.isAlphanum && mdev.toList.length ≤ 128 &&
    mdev.toList.all fun c => c.isAlphanum || c == '_' || c == '.' || c == '-'

def options (raw : String) : List (List Char) := raw.toList.splitOn ','

/-- Every part is an expected property, and no property is missing. -/
def matchOptions : List (List Char × List Char) → List (List Char) → Bool
  | expected, [] => expected.isEmpty
  | expected, part :: parts =>
    match cut '=' part with
    | none => false
    | some (key, v) =>
      match expected.find? (·.1 == key) with
      | none => false
      | some want => v == want.2 && matchOptions (expected.erase want) parts

def expectedProperties (mapping mdev : String) : List (List Char × List Char) :=
  if mdev = "" then
    [("mapping".toList, mapping.toList), ("pcie".toList, ['1']), ("x-vga".toList, ['1'])]
  else [("mapping".toList, mapping.toList), ("mdev".toList, mdev.toList)]

/-- The options are the properties that the writers below emit, in any order. -/
def matchesGPUResourceMapping (raw mapping mdev : String) : Bool :=
  mapping != "" && byteLength raw.toList ≤ 1024 &&
    (options raw).length == (expectedProperties mapping mdev).length &&
    matchOptions (expectedProperties mapping mdev) (options raw)

inductive Setting
  | ipconfig0 (v : String)
  | hostpci0 (v : String)
  deriving DecidableEq, Repr

structure ConfigUpdate where
  node : String
  vmid : ℕ
  setting : Setting
  digest : String
  deriving DecidableEq, Repr

def configureVMPrimaryDHCP (node : String) (vmid : ℕ) (digest : String) :
    Except String ConfigUpdate := do
  Transition.ensure "cloud-init network precondition is invalid"
    (trimSpace node != "" && 0 < vmid && validConfigurationDigest digest)
  pure ⟨node, vmid, .ipconfig0 "ip=dhcp", digest⟩

def configureVMPCIResourceMapping (node : String) (vmid : ℕ) (mapping digest : String) :
    Except String ConfigUpdate := do
  let mapping := trimSpace mapping
  Transition.ensure "PCI resource mapping request is invalid"
    (node != "" && 0 < vmid && mappingPattern mapping && validConfigurationDigest digest)
  pure ⟨node, vmid, .hostpci0 ("mapping=" ++ mapping ++ ",pcie=1,x-vga=1"), digest⟩

def configureVMMDevResourceMapping (node : String) (vmid : ℕ) (mapping mdevType digest : String) :
    Except String ConfigUpdate := do
  let mapping := trimSpace mapping
  let mdevType := trimSpace mdevType
  Transition.ensure "mediated PCI resource mapping request is invalid"
    (node != "" && 0 < vmid && mappingPattern mapping && mdevPattern mdevType &&
      validConfigurationDigest digest)
  pure ⟨node, vmid, .hostpci0 ("mapping=" ++ mapping ++ ",mdev=" ++ mdevType), digest⟩

/-- The configuration after a setting; options of a device are stored in an order of their own. -/
def VMConfiguration.apply (c : VMConfiguration) (s : Setting) (stored : String) : VMConfiguration :=
  match s with
  | .ipconfig0 v => { c with ipConfigs := setValue c.ipConfigs "ipconfig0" v }
  | .hostpci0 _ => { c with pciHostDevices := setValue c.pciHostDevices "hostpci0" stored }

def VMConfiguration.hostpci0 (c : VMConfiguration) : String := value c.pciHostDevices "hostpci0"

def Setting.keeps (s : Setting) (stored : String) : Bool :=
  match s with
  | .ipconfig0 v => stored == v
  | .hostpci0 v => (options stored).isPerm (options v)

end Model

section Text

variable {c : Char} {l k v : List Char}

theorem cut_append (h : c ∉ k) : cut c (k ++ c :: v) = some (k, v) := by
  induction k with
  | nil => simp [cut]
  | cons d k ih =>
    obtain ⟨hd, hk⟩ := not_or.mp (mt mem_cons.mpr h)
    simp [cut, Ne.symm hd, ih hk]

theorem eq_of_cut (h : cut c l = some (k, v)) : l = k ++ c :: v := by
  induction l generalizing k with
  | nil => cases h
  | cons d l ih =>
    unfold cut at h
    split at h
    next hd =>
      cases h
      rw [hd, nil_append]
    · obtain ⟨⟨k', v'⟩, hcut, hkv⟩ := Option.map_eq_some_iff.mp h
      cases hkv
      rw [ih hcut, cons_append]

@[simp] theorem byteLength_nil : byteLength [] = 0 := rfl

@[simp] theorem byteLength_cons : byteLength (c :: l) = c.utf8Size + byteLength l := rfl

@[simp] theorem byteLength_append : byteLength (k ++ l) = byteLength k + byteLength l := by
  simp [byteLength]

theorem byteLength_splitOn (l : List Char) :
    ((l.splitOn c).map byteLength).sum + (l.splitOn c).length * c.utf8Size =
      byteLength l + c.utf8Size := by
  induction l with
  | nil => simp
  | cons d l ih =>
    obtain ⟨p, ps, hsplit⟩ := exists_cons_of_ne_nil (splitOn_ne_nil c l)
    rw [splitOn_cons_eq_if_modifyHead]
    rw [hsplit] at ih ⊢
    split
    next hd =>
      obtain rfl := beq_iff_eq.mp hd
      simp only [map_cons, sum_cons, length_cons, Nat.add_mul, Nat.one_mul,
        byteLength_nil, byteLength_cons] at ih ⊢
      omega
    · simp only [modifyHead_cons, map_cons, sum_cons, length_cons, Nat.add_mul,
        Nat.one_mul, byteLength_cons] at ih ⊢
      omega

theorem byteLength_eq_of_perm {l' : List Char} (h : (l.splitOn c).Perm (l'.splitOn c)) :
    byteLength l = byteLength l' := by
  have hl := byteLength_splitOn (c := c) l
  have hl' := byteLength_splitOn (c := c) l'
  rw [(h.map byteLength).sum_nat, h.length_eq] at hl
  omega

end Text

section Matching

theorem matchOptions_of_perm {expected : List (List Char × List Char)} {parts : List (List Char)}
    (hkeys : (expected.map Prod.fst).Nodup) (heq : ∀ e ∈ expected, '=' ∉ e.1)
    (h : parts.Perm (expected.map fun e => e.1 ++ '=' :: e.2)) :
    matchOptions expected parts = true := by
  induction parts generalizing expected with
  | nil =>
    obtain rfl := map_eq_nil_iff.mp (nil_perm.mp h)
    rfl
  | cons part parts ih =>
    obtain ⟨e, he, rfl⟩ := mem_map.mp (h.mem_iff.mp mem_cons_self)
    have hfind : expected.find? (·.1 == e.1) = some e := by
      obtain ⟨e', he'⟩ := Option.isSome_iff_exists.mp
        (List.find?_isSome.mpr ⟨e, he, beq_self_eq_true e.1⟩ :
          (expected.find? (·.1 == e.1)).isSome = true)
      have hkey := List.find?_some he'
      rw [he', inj_on_of_nodup_map hkeys (mem_of_find?_eq_some he') he
        (beq_iff_eq.mp hkey)]
    have hperm := perm_cons_erase he
    have herase : (expected.erase e).Sublist expected := erase_sublist
    simp only [matchOptions, cut_append (heq e he), hfind, beq_self_eq_true, Bool.true_and]
    refine ih (hkeys.sublist (herase.map _)) (fun e' he' => heq e' (herase.subset he')) ?_
    exact (h.trans (hperm.map _)).cons_inv

theorem perm_of_matchOptions {expected : List (List Char × List Char)} {parts : List (List Char)}
    (h : matchOptions expected parts = true) :
    parts.Perm (expected.map fun e => e.1 ++ '=' :: e.2) := by
  induction parts generalizing expected with
  | nil => rw [isEmpty_iff.mp h, map_nil]
  | cons part parts ih =>
    unfold matchOptions at h
    split at h
    · cases h
    next key v hcut =>
      split at h
      · cases h
      next want hfind =>
        rw [Bool.and_eq_true, beq_iff_eq] at h
        have hkey := List.find?_some hfind
        have hpart : part = want.1 ++ '=' :: want.2 := by
          rw [eq_of_cut hcut, h.1, beq_iff_eq.mp hkey]
        have hwant := perm_cons_erase (mem_of_find?_eq_some hfind)
        rw [hpart]
        exact ((hwant.map _).trans ((ih h.2).symm.cons _)).symm

theorem plain_of_name {c : Char} (h : (c.isAlphanum || c == '_' || c == '.' || c == '-') = true) :
    c.utf8Size = 1 ∧ c ≠ ',' := by
  have hval : c.val.toNat < 128 ∧ 45 ≤ c.val.toNat := by
    delta Char.isAlphanum Char.isAlpha Char.isUpper Char.isLower Char.isDigit at h
    simp only [Bool.or_eq_true, Bool.and_eq_true, decide_eq_true_eq, UInt32.le_iff_toNat_le,
      ge_iff_le, beq_iff_eq, Char.reduceVal, UInt32.reduceToNat] at h
    rcases h with ((((h | h) | h) | rfl) | rfl) | rfl
    · omega
    · omega
    · omega
    all_goals decide
  constructor
  · simp only [Char.utf8Size_eq_one_iff, UInt32.le_iff_toNat_le, UInt32.reduceToNat]
    omega
  · rintro rfl
    revert hval
    decide

theorem plain_of_names {l : List Char}
    (h : ∀ c ∈ l, (c.isAlphanum || c == '_' || c == '.' || c == '-') = true) :
    byteLength l = l.length ∧ ',' ∉ l := by
  induction l with
  | nil => simp
  | cons c l ih =>
    obtain ⟨hc, hl⟩ := forall_mem_cons.mp h
    obtain ⟨hsize, hne⟩ := plain_of_name hc
    obtain ⟨hlen, hmem⟩ := ih hl
    refine ⟨?_, ?_⟩
    · rw [byteLength_cons, hsize, hlen, length_cons]
      omega
    · rw [mem_cons, not_or]
      exact ⟨hne.symm, hmem⟩

theorem plain_of_mapping {mapping : String} (h : mappingPattern mapping = true) :
    mapping ≠ "" ∧ byteLength mapping.toList ≤ 64 ∧ ',' ∉ mapping.toList := by
  simp only [mappingPattern, Bool.and_eq_true, decide_eq_true_eq, all_eq_true] at h
  obtain ⟨⟨hhead, hlen⟩, hall⟩ := h
  obtain ⟨hsize, hmem⟩ := plain_of_names fun c hc => by
    have hc := hall c hc
    simp only [Bool.or_eq_true] at hc ⊢
    tauto
  refine ⟨?_, Nat.le_trans (Nat.le_of_eq hsize) hlen, hmem⟩
  rintro rfl
  simp at hhead

theorem plain_of_mdev {mdev : String} (h : mdevPattern mdev = true) :
    byteLength mdev.toList ≤ 128 ∧ ',' ∉ mdev.toList := by
  simp only [mdevPattern, Bool.and_eq_true, decide_eq_true_eq, all_eq_true] at h
  obtain ⟨hsize, hmem⟩ := plain_of_names h.2
  exact ⟨Nat.le_trans (Nat.le_of_eq hsize) h.1.2, hmem⟩

/-- Exactly the permutations of the options that were written are recognised. -/
theorem matches_iff_perm {raw written mapping mdev : String} (hmapping : mapping ≠ "")
    (hsize : byteLength written.toList ≤ 1024) (hwritten : options written =
      (expectedProperties mapping mdev).map fun e => e.1 ++ '=' :: e.2) :
    matchesGPUResourceMapping raw mapping mdev = true ↔ (options raw).Perm (options written) := by
  simp only [matchesGPUResourceMapping, bne_iff_ne, Bool.and_eq_true, decide_eq_true_eq, beq_iff_eq]
  rw [hwritten]
  constructor
  · exact fun h => perm_of_matchOptions h.2
  · intro h
    have hbytes := byteLength_eq_of_perm (hwritten ▸ h : (options raw).Perm (options written))
    refine ⟨⟨⟨hmapping, Nat.le_trans (Nat.le_of_eq hbytes) hsize⟩, ?_⟩,
      matchOptions_of_perm ?_ ?_ h⟩
    · rw [h.length_eq, length_map]
    all_goals
      unfold expectedProperties
      split <;> simp

end Matching

section Written

variable {node mapping mdev digest raw stored : String} {vmid : ℕ} {u : ConfigUpdate}

theorem matches_iff_pci (h : mappingPattern mapping = true) :
    matchesGPUResourceMapping raw mapping "" = true ↔
      (options raw).Perm (options ("mapping=" ++ mapping ++ ",pcie=1,x-vga=1")) := by
  obtain ⟨hne, hsize, hmem⟩ := plain_of_mapping h
  refine matches_iff_perm hne ?_ ?_
  · simp only [String.toList_append, byteLength_append]
    have hrest : byteLength "mapping=".toList + byteLength ",pcie=1,x-vga=1".toList = 23 := by
      decide
    omega
  · rw [options, String.toList_append, String.toList_append, append_assoc,
      show ",pcie=1,x-vga=1".toList = ',' :: "pcie=1,x-vga=1".toList from rfl,
      ← append_assoc, splitOn_append_cons_self_of_not_mem]
    · rfl
    · rw [mem_append, not_or]
      exact ⟨by decide, hmem⟩

theorem matches_iff_mdev (h : mappingPattern mapping = true) (h' : mdevPattern mdev = true) :
    matchesGPUResourceMapping raw mapping mdev = true ↔
      (options raw).Perm (options ("mapping=" ++ mapping ++ ",mdev=" ++ mdev)) := by
  obtain ⟨hmapping, hsize, hmem⟩ := plain_of_mapping h
  obtain ⟨hsize', hmem'⟩ := plain_of_mdev h'
  have hne : mdev ≠ "" := by
    rintro rfl
    simp [mdevPattern] at h'
  refine matches_iff_perm hmapping ?_ ?_
  · simp only [String.toList_append, byteLength_append]
    have hrest : byteLength "mapping=".toList + byteLength ",mdev=".toList = 14 := by decide
    omega
  · rw [options, expectedProperties, if_neg hne, String.toList_append, String.toList_append,
      String.toList_append, append_assoc,
      show ",mdev=".toList = ',' :: "mdev=".toList from rfl, cons_append,
      splitOn_append_cons_self_of_not_mem, splitOn_eq_singleton]
    · rfl
    · rw [mem_append, not_or]
      exact ⟨by decide, hmem'⟩
    · rw [mem_append, not_or]
      exact ⟨by decide, hmem⟩

/-- What PVE stores of a mapping that was written is recognised as that mapping. -/
theorem matches_of_configureVMPCIResourceMapping (htrim : trimSpace mapping = mapping)
    (h : configureVMPCIResourceMapping node vmid mapping digest = .ok u)
    (hkeeps : u.setting.keeps stored = true) :
    matchesGPUResourceMapping stored mapping "" = true := by
  simp only [configureVMPCIResourceMapping, htrim, Transition.seq_eq_ok,
    Transition.ensure_eq_ok, Bool.and_eq_true] at h
  obtain ⟨⟨⟨-, hpattern⟩, -⟩, h⟩ := h
  cases h
  exact (matches_iff_pci hpattern).mpr (isPerm_iff.mp hkeeps)

theorem matches_of_configureVMMDevResourceMapping
    (htrim : trimSpace mapping = mapping) (htrim' : trimSpace mdev = mdev)
    (h : configureVMMDevResourceMapping node vmid mapping mdev digest = .ok u)
    (hkeeps : u.setting.keeps stored = true) :
    matchesGPUResourceMapping stored mapping mdev = true := by
  simp only [configureVMMDevResourceMapping, htrim, htrim', Transition.seq_eq_ok,
    Transition.ensure_eq_ok, Bool.and_eq_true] at h
  obtain ⟨⟨⟨⟨-, hpattern⟩, hpattern'⟩, -⟩, h⟩ := h
  cases h
  exact (matches_iff_mdev hpattern hpattern').mpr (isPerm_iff.mp hkeeps)

end Written

end VcWorkspace.Clone
