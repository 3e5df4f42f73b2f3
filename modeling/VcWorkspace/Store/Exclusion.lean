import VcWorkspace.Store.Reservation
import VcWorkspace.Transition.Isolation

/-! # Humans and agents exclude each other

A live lease and a native credential never share a desktop, whatever the
interleaving of the store's transactions. The lease trigger sees every reserved
account, the account trigger sees every live lease, and a completed credential
inherits the absence of a lease from its own pending intent.
-/

namespace VcWorkspace.Store.Reservation

open Transition ReadCommitted List
open Bool (and_eq_true)

section Invariant

variable {t t' d : ℕ} {V V' : List Row}

def NoLease (t d : ℕ) (V : List Row) : Prop :=
  ∀ l, .lease d l ∈ V → l.state = .active → l.expiresAt ≤ t

def NoConnection (d : ℕ) (V : List Row) : Prop :=
  ∀ c b, .connection c b ∈ V → c.desktopVmid = d → c.isOpen = false

/-- No account of the desktop but the user's holds or awaits a credential. -/
def OnlyIssue (d : ℕ) (userId : String) (V : List Row) : Prop :=
  ∀ a, .account a ∈ V → a.desktopVmid = d → a.operation = .issue → a.userId = userId

structure Exclusive (t : ℕ) (V : List Row) : Prop where
  reserved : ∀ a, .account a ∈ V → a.operation = .issue → NoLease t a.desktopVmid V
  connected : ∀ c, .connection c true ∈ V → c.isOpen = true → NoLease t c.desktopVmid V
  settled : ∀ a, .account a ∈ V → a.operation = .issue → a.state ≠ .idle
  oneIssue : ∀ a, .account a ∈ V → a.operation = .issue → OnlyIssue a.desktopVmid a.userId V
  oneConnection : ∀ c b c' b', .connection c b ∈ V → .connection c' b' ∈ V →
    c.desktopVmid = c'.desktopVmid → c.isOpen = true → c'.isOpen = true → c.id = c'.id
  oneLease : ∀ d l l', .lease d l ∈ V → .lease d l' ∈ V →
    l.state = .active → l'.state = .active → l.id = l'.id

section Under

theorem account_of_under {a : NativeGuestRow} (h : schema.Under V' V) (ha : .account a ∈ V') :
    .account a ∈ V := by
  obtain ⟨r, hr, hb⟩ := h _ ha
  cases r with
  | account b => exact (show a = b from hb) ▸ hr
  | lease | connection => exact hb.elim

theorem lease_of_under {l : DesktopLease} (h : schema.Under V' V) (hl : .lease d l ∈ V') :
    ∃ l₀, .lease d l₀ ∈ V ∧ l.id = l₀.id ∧ l.expiresAt = l₀.expiresAt ∧
      (l.state = .active → l₀.state = .active) := by
  obtain ⟨r, hr, hb⟩ := h _ hl
  cases r with
  | lease d₀ l₀ =>
    obtain ⟨rfl, hb⟩ := hb
    exact ⟨l₀, hr, hb⟩
  | account | connection => exact hb.elim

theorem connection_of_under {c : DesktopConnectionSession} {b : Bool} (h : schema.Under V' V)
    (hc : .connection c b ∈ V') :
    ∃ c₀, .connection c₀ b ∈ V ∧ c.id = c₀.id ∧ c.desktopVmid = c₀.desktopVmid ∧
      (c.isOpen = true → c₀.isOpen = true) := by
  obtain ⟨r, hr, hb⟩ := h _ hc
  cases r with
  | connection c₀ b₀ =>
    obtain ⟨rfl, hb⟩ := hb
    exact ⟨c₀, hr, hb⟩
  | lease | account => exact hb.elim

theorem NoLease.mono (h : NoLease t d V) (ht : t ≤ t') (hV : schema.Under V' V) :
    NoLease t' d V' := by
  intro l hl hact
  obtain ⟨l₀, hl₀, -, hexp, hst⟩ := lease_of_under hV hl
  rw [hexp]
  exact (h l₀ hl₀ (hst hact)).trans ht

theorem NoConnection.mono (h : NoConnection d V) (hV : schema.Under V' V) : NoConnection d V' := by
  intro c b hc hd
  obtain ⟨c₀, hc₀, -, hd₀, hopen⟩ := connection_of_under hV hc
  by_contra ho
  rw [Bool.not_eq_false] at ho
  exact absurd (hopen ho) (by simp [h c₀ b hc₀ (hd₀ ▸ hd)])

theorem exclusive_stable : Stable schema Exclusive where
  later h ht :=
    { h with
      reserved := fun a ha ho => (h.reserved a ha ho).mono ht .rfl
      connected := fun c hc ho => (h.connected c hc ho).mono ht .rfl }
  under {t V V'} h hV :=
    { reserved := fun a ha ho => (h.reserved a (account_of_under hV ha) ho).mono le_rfl hV
      connected := by
        intro c hc ho
        obtain ⟨c₀, hc₀, -, hd, hopen⟩ := connection_of_under hV hc
        rw [hd]
        exact (h.connected c₀ hc₀ (hopen ho)).mono le_rfl hV
      settled := fun a ha => h.settled a (account_of_under hV ha)
      oneIssue := fun a ha ho a' ha' =>
        h.oneIssue a (account_of_under hV ha) ho a' (account_of_under hV ha')
      oneConnection := by
        intro c b c' b' hc hc' hd ho ho'
        obtain ⟨c₀, hc₀, hi, hd₀, hopen⟩ := connection_of_under hV hc
        obtain ⟨c₀', hc₀', hi', hd₀', hopen'⟩ := connection_of_under hV hc'
        rw [hi, hi']
        exact h.oneConnection c₀ b c₀' b' hc₀ hc₀' (hd₀ ▸ hd₀' ▸ hd) (hopen ho) (hopen' ho')
      oneLease := by
        intro d l l' hl hl' ha ha'
        obtain ⟨l₀, hl₀, hi, -, hact⟩ := lease_of_under hV hl
        obtain ⟨l₀', hl₀', hi', -, hact'⟩ := lease_of_under hV hl'
        rw [hi, hi']
        exact h.oneLease d l₀ l₀' hl₀ hl₀' (hact ha) (hact' ha') }

end Under

section Reads

theorem not_leaseUnexpired {now : ℕ} (h : leaseUnexpired V now d = false) : NoLease now d V := by
  intro l hl hact
  have hl := any_eq_false.mp h _ hl
  simpa [hact] using hl

theorem not_connectionOpen (h : connectionOpen V d = false) : NoConnection d V := by
  intro c b hc hd
  simpa [hd] using any_eq_false.mp h _ hc

theorem not_accountOn {p : NativeGuestAccount → Bool} (h : accountOn V d p = false)
    {a : NativeGuestRow} (ha : .account a ∈ V) (hd : a.desktopVmid = d) :
    p a.toNativeGuestAccount = false := by
  simpa [hd] using any_eq_false.mp h _ ha

theorem reserves_of_issue {a : NativeGuestAccount} (ho : a.operation = .issue)
    (hs : a.state ≠ .idle) : reserves a = true := by
  cases hst : a.state with
  | idle => exact absurd hst hs
  | pending => simp [reserves, hst]
  | applied => simp [reserves, hst, ho]

end Reads

section Put

variable {a : NativeGuestRow}

@[simp] theorem mem_put_schema {r w : Row} :
    r ∈ schema.put w V ↔ (r ∈ V ∧ r.key ≠ w.key) ∨ r = w := Schema.mem_put

theorem noLease_put_account (h : NoLease t d V) : NoLease t d (schema.put (.account a) V) := by
  intro l hl hact
  simp only [mem_put_schema, reduceCtorEq, or_false] at hl
  exact h l hl.1 hact

theorem Exclusive.put_account (h : Exclusive t V) (hi : a.operation = .issue →
      a.state ≠ .idle ∧ NoLease t a.desktopVmid V ∧ OnlyIssue a.desktopVmid a.userId V) :
    Exclusive t (schema.put (.account a) V) where
  reserved b hb ho := by
    apply noLease_put_account
    simp only [mem_put_schema, Row.account.injEq] at hb
    rcases hb with ⟨hb, -⟩ | rfl
    · exact h.reserved b hb ho
    · exact (hi ho).2.1
  connected c hc ho := by
    apply noLease_put_account
    simp only [mem_put_schema, reduceCtorEq, or_false] at hc
    exact h.connected c hc.1 ho
  settled b hb ho := by
    simp only [mem_put_schema, Row.account.injEq] at hb
    rcases hb with ⟨hb, -⟩ | rfl
    · exact h.settled b hb ho
    · exact (hi ho).1
  oneIssue b hb ho b' hb' hd ho' := by
    simp only [mem_put_schema, Row.account.injEq] at hb hb'
    rcases hb with ⟨hb, -⟩ | rfl <;> rcases hb' with ⟨hb', -⟩ | rfl
    · exact h.oneIssue b hb ho b' hb' hd ho'
    · exact ((hi ho').2.2 b hb hd.symm ho).symm
    · exact (hi ho).2.2 b' hb' hd ho'
    · rfl
  oneConnection c b c' b' hc hc' := by
    simp only [mem_put_schema, reduceCtorEq, or_false] at hc hc'
    exact h.oneConnection c b c' b' hc.1 hc'.1
  oneLease d l l' hl hl' := by
    simp only [mem_put_schema, reduceCtorEq, or_false] at hl hl'
    exact h.oneLease d l l' hl.1 hl'.1

theorem Exclusive.put_lease {l : DesktopLease} (h : Exclusive t V)
    (ha : ∀ a, .account a ∈ V → a.desktopVmid = d → a.operation ≠ .issue)
    (hc : NoConnection d V) (hl : ∀ l', .lease d l' ∈ V → l'.state ≠ .active) :
    Exclusive t (schema.put (.lease d l) V) where
  reserved a hmem ho l' hl' hact := by
    simp only [mem_put_schema, reduceCtorEq, or_false, Row.lease.injEq] at hmem hl'
    rcases hl' with ⟨hl', -⟩ | ⟨hd, -⟩
    · exact h.reserved a hmem.1 ho l' hl' hact
    · exact absurd ho (ha a hmem.1 hd)
  connected c hmem ho l' hl' hact := by
    simp only [mem_put_schema, reduceCtorEq, or_false, Row.lease.injEq] at hmem hl'
    rcases hl' with ⟨hl', -⟩ | ⟨hd, -⟩
    · exact h.connected c hmem.1 ho l' hl' hact
    · rw [hc c true hmem.1 hd] at ho
      cases ho
  settled a hmem := by
    simp only [mem_put_schema, reduceCtorEq, or_false] at hmem
    exact h.settled a hmem.1
  oneIssue a hmem ho b hb := by
    simp only [mem_put_schema, reduceCtorEq, or_false] at hmem hb
    exact h.oneIssue a hmem.1 ho b hb.1
  oneConnection c b c' b' hmem hmem' := by
    simp only [mem_put_schema, reduceCtorEq, or_false] at hmem hmem'
    exact h.oneConnection c b c' b' hmem.1 hmem'.1
  oneLease d' l₁ l₂ h₁ h₂ ha₁ ha₂ := by
    simp only [mem_put_schema, Row.lease.injEq] at h₁ h₂
    rcases h₁ with ⟨h₁, -⟩ | ⟨rfl, rfl⟩ <;> rcases h₂ with ⟨h₂, -⟩ | ⟨hd, rfl⟩
    · exact h.oneLease d' l₁ l₂ h₁ h₂ ha₁ ha₂
    · exact absurd ha₁ (hl l₁ (hd ▸ h₁))
    · exact absurd ha₂ (hl l₂ h₂)
    · rfl

theorem Exclusive.put_connection {c : DesktopConnectionSession} {b : Bool} (h : Exclusive t V)
    (hc : NoConnection c.desktopVmid V) (hl : b = true → NoLease t c.desktopVmid V) :
    Exclusive t (schema.put (.connection c b) V) where
  reserved a hmem ho l' hl' hact := by
    simp only [mem_put_schema, reduceCtorEq, or_false] at hmem hl'
    exact h.reserved a hmem.1 ho l' hl'.1 hact
  connected c' hmem ho l' hl' hact := by
    simp only [mem_put_schema, reduceCtorEq, or_false, Row.connection.injEq] at hmem hl'
    rcases hmem with ⟨hmem, -⟩ | ⟨rfl, hb⟩
    · exact h.connected c' hmem ho l' hl'.1 hact
    · exact hl hb.symm l' hl'.1 hact
  settled a hmem := by
    simp only [mem_put_schema, reduceCtorEq, or_false] at hmem
    exact h.settled a hmem.1
  oneIssue a hmem ho b hb := by
    simp only [mem_put_schema, reduceCtorEq, or_false] at hmem hb
    exact h.oneIssue a hmem.1 ho b hb.1
  oneConnection c₁ b₁ c₂ b₂ h₁ h₂ hd ho₁ ho₂ := by
    simp only [mem_put_schema] at h₁ h₂
    rcases h₁ with ⟨h₁, -⟩ | ⟨rfl, rfl⟩ <;> rcases h₂ with ⟨h₂, -⟩ | ⟨rfl, rfl⟩
    · exact h.oneConnection c₁ b₁ c₂ b₂ h₁ h₂ hd ho₁ ho₂
    · rw [hc c₁ b₁ h₁ hd] at ho₁
      cases ho₁
    · rw [hc c₂ b₂ h₂ hd.symm] at ho₂
      cases ho₂
    · rfl
  oneLease d l l' hl hl' := by
    simp only [mem_put_schema, reduceCtorEq, or_false] at hl hl'
    exact h.oneLease d l l' hl.1 hl'.1

end Put

end Invariant

section Programs

variable {n t d : ℕ} {V : List Row} {a : NativeGuestAccount} {row row' : NativeGuestRow}
  {rest : List (Stmt RowKey Row)}

theorem quiet_closeLeases (p : ℕ → ℕ → DesktopLease → Bool) (state : LeaseState) (bump : Bool) :
    (closeLeases p state bump).Quiet schema := by
  intro now V r hr
  cases r with
  | lease d l =>
    have hact : l.state = .active := by
      simp only [and_eq_true, beq_iff_eq] at hr
      exact hr.1
    exact ⟨rfl, rfl, rfl, fun _ => hact⟩
  | account | connection => cases hr

theorem quiet_updateConnections (p : DesktopConnectionSession → Bool)
    {f : ℕ → DesktopConnectionSession → DesktopConnectionSession}
    (hf : ∀ n c, (f n c).id = c.id ∧ (f n c).desktopVmid = c.desktopVmid) :
    (updateConnections p f).Quiet schema := by
  intro now V r hr
  cases r with
  | connection c b =>
    have hopen : c.isOpen = true := by
      simp only [and_eq_true] at hr
      exact hr.1
    exact ⟨rfl, (hf now c).1, (hf now c).2, fun _ => hopen⟩
  | lease | account => cases hr

theorem quiet_commitAccessChange (rights : AccessRights) :
    ∀ st ∈ commitAccessChange rights, st.Quiet schema := by
  intro st hst
  simp only [commitAccessChange, mem_cons, not_mem_nil, or_false] at hst
  rcases hst with rfl | rfl
  · exact quiet_updateConnections _ fun _ _ => ⟨rfl, rfl⟩
  · exact quiet_closeLeases _ _ _

/-- A transaction that takes the lock and runs one statement that only ends rows. -/
theorem free_single (h : st.Quiet schema) : Free schema Exclusive n [.lock, st] := by
  apply Free.of_quiet
  intro st' hst
  simp only [mem_cons, not_mem_nil, or_false] at hst
  rcases hst with rfl | rfl
  · trivial
  · exact h

theorem free_access {rights : AccessRights} (h : st.Quiet schema) :
    Free schema Exclusive n (.lock :: st :: commitAccessChange rights) := by
  apply Free.of_quiet
  intro st' hst
  simp only [mem_cons] at hst
  rcases hst with rfl | rfl | hst
  · trivial
  · exact h
  · exact quiet_commitAccessChange rights st' hst

theorem locked_updateAccount
    (h : ∀ t₁ V₀ V₁ row row', t ≤ t₁ → schema.Under V₁ V → Exclusive t₁ V₁ → .account row ∈ V₁ →
      f n V₀ V₁ row = .ok row' → Exclusive t₁ (schema.put (.account row') V₁) ∧
        Locked schema Exclusive n rest t₁ (schema.put (.account row') V₁)) :
    Locked schema Exclusive n (updateAccount a f :: rest) t V := by
  intro t₀ V₀ ht₀ hV₀ t₁ V₁ ht₁ hV₁ hI r hr hk r' hf
  cases r with
  | account row =>
    obtain ⟨row', hok, rfl⟩ := Option.map_eq_some_iff.mp hf
    exact h t₁ V₀ V₁ row row' (ht₀.trans ht₁) (hV₁.trans hV₀) hI hr (toOption_eq_some.mp hok)
  | lease | connection => cases hf

theorem Exclusive.rewrite_account (h : Exclusive t V) (hrow : .account row ∈ V)
    (hd : row'.desktopVmid = row.desktopVmid) (hu : row'.userId = row.userId)
    (ho : row'.operation = .issue → row.operation = .issue ∧ row'.state ≠ .idle) :
    Exclusive t (schema.put (.account row') V) := by
  apply h.put_account
  intro hi
  obtain ⟨hrow_op, hst⟩ := ho hi
  rw [hd, hu]
  exact ⟨hst, h.reserved row hrow hrow_op, h.oneIssue row hrow hrow_op⟩

theorem free_cleanup (h : ∀ n V₀ V₁ row row', f n V₀ V₁ row = .ok row' → row'.operation ≠ .issue) :
    Free schema Exclusive n [.lock, updateAccount a f] := by
  intro t V hn hI
  apply locked_updateAccount
  intro t₁ V₀ V₁ row row' ht hV hI hrow hf
  exact ⟨hI.put_account fun ho => absurd ho (h _ _ _ _ _ hf), trivial⟩

theorem locked_insertConnection {env : ConnectionEnv} {session : DesktopConnectionSession}
    {digest : Option (List UInt8)} {bound : Bool}
    (h : bound = true → NoLease t session.desktopVmid V) :
    Locked schema Exclusive n [insertConnection env session digest bound] t V := by
  intro t₀ V₀ ht₀ hV₀ t₁ V₁ ht₁ hV₁ hI r hf hk
  obtain ⟨c, hok, rfl⟩ := Option.map_eq_some_iff.mp hf
  obtain ⟨-, -, hidx, rfl⟩ := insertDesktopConnectionSession_ok (toOption_eq_some.mp hok)
  simp only [Bool.or_eq_false_iff] at hidx
  refine ⟨hI.put_connection (not_connectionOpen hidx.2) ?_, trivial⟩
  exact fun hb => (h hb).mono (ht₀.trans ht₁) (hV₁.trans hV₀)

variable (sha256 : Sha256) {st : Stmt RowKey Row}
  {f : ℕ → List Row → List Row → NativeGuestRow → Except StoreError NativeGuestRow}

theorem free_createDesktopLease (allowed : Bool) (lease : DesktopLease) :
    Free schema Exclusive n (createDesktopLease allowed d lease) := by
  intro t V hn hI t₁ V₁ ht₁ hV₁ hI₁ hg
  have hnone : NoConnection d V₁ := by
    simp only [and_eq_true, Bool.not_eq_true'] at hg
    exact not_connectionOpen hg.2
  constructor
  · exact quiet_closeLeases _ _ _
  · -- the trigger and the index see the rows as they are when the lease is inserted
    intro t₂ V₂ ht₂ hV₂ t₃ V₃ ht₃ hV₃ hI₃ r hf hk
    beta_reduce at hf
    split at hf
    · cases hf
    next hfree =>
      cases hf
      simp only [Bool.not_eq_true, Bool.or_eq_false_iff] at hfree
      refine ⟨hI₃.put_lease ?_ (hnone.mono (hV₃.trans hV₂)) fun l hl => by
        simpa using any_eq_false.mp hfree.2 _ hl, trivial⟩
      intro a ha hd ho
      have hr := reserves_of_issue ho (hI₃.settled a ha ho)
      rw [not_accountOn hfree.1 ha hd] at hr
      cases hr

theorem free_bindNativeGuestAccount (env : NativeEnv) (digest : List UInt8) (pinned : Bool) :
    Free schema Exclusive n (bindNativeGuestAccount sha256 env a digest pinned) := by
  cases pinned with
  | true =>
    intro t V hn hI
    apply locked_updateAccount
    intro t₁ V₀ V₁ row row' ht hV hI hrow hf
    obtain rfl := bind_update_spec hf
    exact ⟨hI.rewrite_account hrow rfl rfl fun ho => ⟨ho, hI.settled _ hrow ho⟩, trivial⟩
  | false =>
    intro t V hn hI t₀ V₀ ht₀ hV₀ t₁ V₁ ht₁ hV₁ hI₁ r hf hk
    obtain ⟨row, hok, rfl⟩ := Option.map_eq_some_iff.mp hf
    obtain ⟨-, -, -, -, -, hop⟩ := bind_insert_spec (toOption_eq_some.mp hok)
    exact ⟨hI₁.put_account fun ho => absurd (hop.symm.trans ho) (by decide), trivial⟩

theorem free_beginNativeGuestCredential (env : NativeEnv) (connectionId : String) (expiresAt : ℕ)
    (digest : List UInt8) : Free schema Exclusive n
      (beginNativeGuestCredential sha256 env a connectionId expiresAt digest) := by
  intro t V hn hI
  apply locked_updateAccount
  intro t₁ V₀ V₁ row row' ht hV hI hrow hf
  have hs := begin_spec hf
  obtain ⟨hlease, hother⟩ := hs.unreserved
  obtain ⟨hd, hu⟩ := hs.subject
  simp only [accountEnv] at hlease hother
  refine ⟨hI.put_account fun _ => ⟨by rw [hs.state]; decide, ?_, ?_⟩, trivial⟩
  · -- the clock of the trigger is the start of the transaction
    rw [hd]
    exact (not_leaseUnexpired hlease).mono (hn.trans ht) .rfl
  · rw [hd, hu]
    intro b hb hbd ho
    have hr := reserves_of_issue ho (hI.settled b hb ho)
    simpa [hr] using not_accountOn hother hb hbd

theorem free_completeNativeGuestAccountOperation (env : NativeEnv) (connection : ConnectionEnv)
    (digest : List UInt8) : Free schema Exclusive n
      (completeNativeGuestAccountOperation sha256 env a connection digest) := by
  unfold completeNativeGuestAccountOperation
  split
  next hop =>
    intro t V hn hI t₁ V₁ ht₁ hV₁ hI₁ hg
    apply locked_updateAccount
    intro t₂ V₂ V₃ row row' ht₂ hV₃ hI₃ hrow hf
    obtain ⟨rfl, -, hst, hpin, -, hrop, -⟩ := complete_spec hf
    have hissue : row.operation = .issue := hrop.trans hop
    refine ⟨hI₃.rewrite_account hrow rfl rfl fun _ => ⟨hissue, by simp⟩, ?_⟩
    -- the pending intent has kept leases away, and the lock does so until the insertion
    intro t₄ V₄ ht₄ hV₄ hI₄ hexp
    apply locked_insertConnection
    intro _
    have hd : row.desktopVmid = a.desktopVmid := (NativeGuestAccount.samePin_iff.mp hpin).1
    have hnone : NoLease t₂ a.desktopVmid V₃ := hd ▸ hI₃.reserved row hrow hissue
    exact (noLease_put_account hnone).mono ht₄ hV₄
  next hop =>
    intro t V hn hI
    apply locked_updateAccount
    intro t₁ V₀ V₁ row row' ht hV hI₁ hrow hf
    obtain ⟨rfl, -, -, -, -, hrop, -⟩ := complete_spec hf
    constructor
    · exact hI₁.put_account fun ho => absurd (hrop.symm.trans ho) hop
    · exact ⟨quiet_updateConnections _ fun _ _ => ⟨rfl, rfl⟩, trivial⟩

theorem free_program (op : StoreOp) (n : ℕ) : Free schema Exclusive n (program sha256 op) := by
  cases op with
  | createDesktopLease allowed d lease => exact free_createDesktopLease allowed lease
  | bindNativeGuestAccount env a digest pinned =>
    exact free_bindNativeGuestAccount sha256 env digest pinned
  | beginNativeGuestCredential env a connectionId expiresAt digest =>
    exact free_beginNativeGuestCredential sha256 env connectionId expiresAt digest
  | retireNativeGuestCredential env a =>
    apply free_cleanup
    intro n V₀ V₁ row row' hf
    rw [(retire_spec hf).1.operation]
    decide
  | revokeNativeGuestAccount env a =>
    apply free_cleanup
    intro n V₀ V₁ row row' hf
    rw [(revoke_spec hf).1.operation]
    decide
  | completeNativeGuestAccountOperation env a connection digest =>
    exact free_completeNativeGuestAccountOperation sha256 env connection digest
  | commitNativeGuestRecovery env expected revision connectionId receipt safe =>
    intro t V hn hI t₁ V₁ ht₁ hV₁ hI₁ hg
    apply locked_updateAccount
    intro t₂ V₂ V₃ row row' ht hV hI₂ hrow hf
    obtain ⟨rfl, hop, -⟩ := recovery_spec hf
    exact ⟨hI₂.put_account fun ho => absurd (hop.symm.trans ho) (by decide), trivial⟩
  | createDesktopConnectionSession env session digest =>
    intro t V hn hI
    exact locked_insertConnection (fun hb => by cases hb)
  | releaseDesktopLease | revokeDesktopLeases | queueExpiredComputerLeases
  | queueAgentGuestSessionRevocation | setAgentEnabled =>
    exact free_single (quiet_closeLeases _ _ _)
  | desktopConnectionsDueForRevocation | completeGuestIdentityRevocation | revokeNativeSession =>
    exact free_single (quiet_updateConnections _ fun _ _ => ⟨rfl, rfl⟩)
  | beginRevokeDesktopConnections | beginRevokeUserDesktopConnections
  | beginRevokeDesktopConnection | markDesktopConnectionClosed =>
    -- these run without the lock
    exact ⟨quiet_updateConnections _ fun _ _ => ⟨rfl, rfl⟩, trivial⟩
  | setUserDisabled | setUserPassword =>
    exact free_access (quiet_updateConnections _ fun _ _ => ⟨rfl, rfl⟩)
  | deleteAgentAssignment => exact free_access (quiet_closeLeases _ _ _)
  | changeAccess rights =>
    exact fun t V _ _ => Locked.of_quiet (quiet_commitAccessChange rights) t V

end Programs

section Results

variable {sha256 : Sha256} {s : System RowKey Row} {t d : ℕ} {V : List Row}

/-- The row is an account of the desktop that holds or awaits a credential. -/
def Row.issuesOn (d : ℕ) : Row → Bool
  | .account a => a.desktopVmid == d && a.operation == .issue
  | _ => false

def Row.connectsTo (d : ℕ) : Row → Bool
  | .connection c _ => c.desktopVmid == d && c.isOpen
  | _ => false

/-- The row is an open connection that the completion of a native credential inserted. -/
def Row.connectsNativelyTo (d : ℕ) : Row → Bool
  | .connection c bound => c.desktopVmid == d && c.isOpen && bound
  | _ => false

def Row.leases (d : ℕ) : Row → Bool
  | .lease d' l => d' == d && l.state == .active
  | _ => false

theorem exclusive_of_reachable (hs : (store sha256).Reachable s) :
    Exclusive s.clock s.db ∧ (s.db.map schema.key).Nodup :=
  committed_invariant exclusive_stable (fun _ => by constructor <;> simp) (free_program sha256) hs

theorem Exclusive.alone (h : Exclusive t V) (hl : leaseUnexpired V t d = true) :
    V.countP (Row.issuesOn d) = 0 ∧ V.countP (Row.connectsNativelyTo d) = 0 := by
  obtain ⟨r, hr, hp⟩ := any_eq_true.mp hl
  cases r with
  | lease d' l =>
    simp only [and_eq_true, beq_iff_eq, decide_eq_true_eq] at hp
    obtain ⟨⟨rfl, hact⟩, hlt⟩ := hp
    have hno : ¬ NoLease t d' V := fun hno => absurd (hno l hr hact) (by omega)
    constructor <;> rw [countP_eq_zero] <;> intro r hmem hp
    · cases r with
      | account a =>
        simp only [Row.issuesOn, and_eq_true, beq_iff_eq] at hp
        exact hno (hp.1 ▸ h.reserved a hmem hp.2)
      | lease | connection => cases hp
    · cases r with
      | connection c b =>
        simp only [Row.connectsNativelyTo, and_eq_true, beq_iff_eq] at hp
        obtain ⟨⟨hd, ho⟩, rfl⟩ := hp
        exact hno (hd ▸ h.connected c hmem ho)
      | lease | account => cases hp
  | account | connection => cases hp

theorem Exclusive.key_issuesOn (h : Exclusive t V) :
    ∀ r ∈ V, ∀ r' ∈ V, r.issuesOn d = true → r'.issuesOn d = true →
      schema.key r = schema.key r' := by
  intro r hr r' hr' hp hp'
  cases r with
  | account a =>
    cases r' with
    | account b =>
      simp only [Row.issuesOn, and_eq_true, beq_iff_eq] at hp hp'
      have hu := h.oneIssue a hr hp.2 b hr' (hp'.1.trans hp.1.symm) hp'.2
      simp [schema, Row.key, hp.1, hp'.1, hu]
    | lease | connection => cases hp'
  | lease | connection => cases hp

theorem Exclusive.key_connectsTo (h : Exclusive t V) :
    ∀ r ∈ V, ∀ r' ∈ V, r.connectsTo d = true → r'.connectsTo d = true →
      schema.key r = schema.key r' := by
  intro r hr r' hr' hp hp'
  cases r with
  | connection c b =>
    cases r' with
    | connection c' b' =>
      simp only [Row.connectsTo, and_eq_true, beq_iff_eq] at hp hp'
      exact congrArg RowKey.connection
        (h.oneConnection c b c' b' hr hr' (hp.1.trans hp'.1.symm) hp.2 hp'.2)
    | lease | account => cases hp'
  | lease | account => cases hp

theorem Exclusive.key_leases (h : Exclusive t V) :
    ∀ r ∈ V, ∀ r' ∈ V, r.leases d = true → r'.leases d = true →
      schema.key r = schema.key r' := by
  intro r hr r' hr' hp hp'
  cases r with
  | lease d₁ l =>
    cases r' with
    | lease d₂ l' =>
      simp only [Row.leases, and_eq_true, beq_iff_eq] at hp hp'
      obtain ⟨rfl, hact⟩ := hp
      obtain ⟨rfl, hact'⟩ := hp'
      exact congrArg RowKey.lease (h.oneLease _ l l' hr hr' hact hact')
    | account | connection => cases hp'
  | account | connection => cases hp

/-- Human and agent exclusion: a committed live lease stands beside no native credential and no
connection of one, and a desktop has at most one of each. -/
theorem human_agent_exclusion (hs : (store sha256).Reachable s) (d : ℕ) :
    (leaseUnexpired s.db s.clock d = true →
      s.db.countP (Row.issuesOn d) = 0 ∧ s.db.countP (Row.connectsNativelyTo d) = 0) ∧
    s.db.countP (Row.issuesOn d) ≤ 1 ∧ s.db.countP (Row.connectsTo d) ≤ 1 ∧
    s.db.countP (Row.leases d) ≤ 1 := by
  obtain ⟨h, hn⟩ := exclusive_of_reachable hs
  exact ⟨h.alone, countP_le_one hn h.key_issuesOn, countP_le_one hn h.key_connectsTo,
    countP_le_one hn h.key_leases⟩

end Results

section Held

variable {sha256 : Sha256} {s s' : System RowKey Row} {i : ℕ}
  {es : List (Event StoreOp Row)}

def RowKey.IsConnection (k : RowKey) : Prop := ∃ id, k = .connection id

theorem confined_program (op : StoreOp) :
    Confined schema RowKey.IsConnection (program sha256 op) := by
  cases op
  case beginRevokeDesktopConnections | beginRevokeUserDesktopConnections
    | beginRevokeDesktopConnection | markDesktopConnectionClosed =>
    refine ⟨fun n V r hr => ?_, trivial⟩
    cases r with
    | connection c b => exact ⟨_, rfl⟩
    | lease | account => cases hr
  case bindNativeGuestAccount | completeNativeGuestAccountOperation =>
    simp only [program, bindNativeGuestAccount, completeNativeGuestAccountOperation]
    split <;> trivial
  all_goals trivial

/-- While a transaction holds the authorization lock, whatever else runs, the committed leases and
accounts do not change, and no connection is opened. -/
theorem held_grants_stand (hs : (store sha256).Reachable s) (hi : s.holder = some i)
    (hrun : (store sha256).run s es = some s') (hc : .commit i ∉ es) (ha : .abort i ∉ es) :
    s'.holder = some i ∧ (∀ d l, .lease d l ∈ s'.db ↔ .lease d l ∈ s.db) ∧
    (∀ a, .account a ∈ s'.db ↔ .account a ∈ s.db) ∧
    ∀ c b, .connection c b ∈ s'.db → c.isOpen = true →
      ∃ c₀, .connection c₀ b ∈ s.db ∧ c₀.id = c.id ∧ c₀.isOpen = true := by
  have hkept : Kept schema RowKey.IsConnection i s s' :=
    kept_of_run exclusive_stable (fun _ => by constructor <;> simp) (free_program sha256)
      confined_program hs hi hrun hc ha
  refine ⟨hkept.holder, fun d l => hkept.rows _ nofun, fun a => hkept.rows _ nofun, ?_⟩
  intro c b hmem hopen
  obtain ⟨r, hr, hbelow⟩ := hkept.under _ hmem
  cases r with
  | connection c₀ b₀ =>
    obtain ⟨rfl, hid, -, hwas⟩ := hbelow
    exact ⟨c₀, hr, hid.symm, hwas hopen⟩
  | lease | account => exact hbelow.elim

end Held

section Sample

/-- A lease is created and expires; then a credential is issued on the desktop. -/
def sampleRun : List (Event StoreOp Row) :=
  let idle := sampleAccount 0 .none .idle "" none
  let issue := sampleAccount 1 .issue .pending "conn_example_one" (some 200000000)
  [.start (.createDesktopLease true 100 ⟨"lease_example", "agent", .active, 1, 5, Eq.refl true⟩),
    .lock 0, .guard 0, .next 0, .snapshot 0, .insert 0,
    .start (.bindNativeGuestAccount sampleEnv idle [1] false), .commit 0, .lock 1, .tick 10,
    .start (.beginNativeGuestCredential sampleEnv idle "conn_example_one" 200000000 [1]),
    .snapshot 1, .insert 1, .commit 1, .lock 2, .snapshot 2, .write 2, .commit 2,
    .start (.completeNativeGuestAccountOperation sampleEnv issue
      ⟨true, true, false, false, false⟩ [1]),
    .lock 3, .guard 3, .snapshot 3, .write 3, .guard 3, .snapshot 3, .insert 3, .commit 3]

/-- The credential and its connection stand beside the lease, which has expired. -/
theorem human_agent_exclusion_expired :
    ∃ s, (store sampleDigest).Reachable s ∧ s.db.countP (Row.issuesOn 100) = 1 ∧
      s.db.countP (Row.connectsNativelyTo 100) = 1 ∧ s.db.countP (Row.leases 100) = 1 ∧
      leaseUnexpired s.db s.clock 100 = false := by
  obtain ⟨s, hs, hissue, hconn, hlease⟩ : ∃ s, (store sampleDigest).Reachable s ∧
      s.db.countP (Row.issuesOn 100) = 1 ∧ s.db.countP (Row.connectsNativelyTo 100) = 1 ∧
      s.db.countP (Row.leases 100) = 1 :=
    Machine.exists_reachable_of_run ⟨[], 0, none, []⟩ sampleRun ⟨rfl, rfl, rfl⟩ (by decide)
  refine ⟨s, hs, hissue, hconn, hlease, ?_⟩
  by_contra hlive
  have hnone := (human_agent_exclusion hs 100).1 (by simpa using hlive)
  omega

def sampleConnection : DesktopConnectionSession :=
  ⟨"conn_example_one", "user", 100, "vcw000000000000", .active, 200000000, false, none⟩

/-- The lease of another desktop is about to be created; a connection is revoked meanwhile. -/
theorem held_grants_stand_revoked :
    ∃ s s', (store sampleDigest).Reachable s ∧ s.holder = some 1 ∧
      (store sampleDigest).Leads s s' ∧ s'.db ≠ s.db ∧ s'.holder = some 1 := by
  let meanwhile : List (Event StoreOp Row) :=
    [.start (.beginRevokeDesktopConnections 100), .snapshot 2,
      .lower 2 (.connection sampleConnection false), .next 2, .commit 2]
  obtain ⟨s, hs, hholder, hnext⟩ : ∃ s, (store sampleDigest).Reachable s ∧ s.holder = some 1 ∧
      ((store sampleDigest).run s meanwhile).any (fun s' => decide (s'.db ≠ s.db)) = true :=
    Machine.exists_reachable_of_run ⟨[], 0, none, []⟩
      [.start (.createDesktopConnectionSession ⟨true, true, false, false, false⟩ sampleConnection
        none), .lock 0, .snapshot 0, .insert 0, .commit 0,
        .start (.createDesktopLease true 200 ⟨"lease_example", "agent", .active, 1, 5, by decide⟩),
        .lock 1] ⟨rfl, rfl, rfl⟩ (by decide)
  obtain ⟨s', hrun, hne⟩ := (Option.any_eq_true _ _).mp hnext
  exact ⟨s, s', hs, hholder, ⟨_, hrun⟩, of_decide_eq_true hne,
    (held_grants_stand hs hholder hrun (by simp [meanwhile]) (by simp [meanwhile])).1⟩

end Sample

end VcWorkspace.Store.Reservation
