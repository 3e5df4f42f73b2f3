import Mathlib.Data.List.Nodup
import VcWorkspace.Store.ComputerLedger
import VcWorkspace.Transition.Machine

/-! # The table of agent sessions

The rows of `agent_guest_sessions` change by the statements of the sessions and
by the trigger of the leases. All of them but the completed revocation, which is
a single statement on its row, hold the authorization lock, which a lease takes
through its own trigger. So the transactions follow one another, and those that
close a lease may have chosen it by anything they read before.
-/

namespace VcWorkspace.Store.SessionTable

open Transition List

section Model

structure World where
  desktops : ℕ → Ledger
  /-- The primary key of `desktop_leases`, with the desktops of the leases. -/
  owners : List (String × ℕ)
  /-- The leases and login generations that `BeginAgentGuestLogin` has returned. -/
  returned : List (String × ℕ)

inductive Event
  | createDesktopLease (vmid : ℕ) (env : LeaseEnv) (now : ℕ) (lease : DesktopLease)
  /-- A statement that closes the active lease of a desktop, if it meets the condition. -/
  | closeLease (vmid : ℕ) (p : DesktopLease → Bool) (state : LeaseState) (bump : Bool)
  | beginAgentGuestSession (env : SessionEnv) (now vmid : ℕ) (leaseId agentId : String) (epoch : ℕ)
  | bindAgentGuestAccount (env : SessionEnv) (now : ℕ) (item : AgentGuestSession) (revoking : Bool)
  | beginAgentGuestLogin (env : SessionEnv) (now : ℕ) (item : AgentGuestSession)
  | markAgentGuestSessionReady (env : SessionEnv) (now : ℕ) (item : AgentGuestSession)
  | completeAgentGuestSessionRevocation (env : SessionEnv) (now : ℕ) (item : AgentGuestSession)
  | computerControlEpoch (vmid : ℕ)
  | completeComputerRevocation (vmid revision : ℕ)

namespace World

variable (w : World)

def put (vmid : ℕ) (r : Ledger) : World :=
  { w with desktops := fun d => if d = vmid then r else w.desktops d }

def update (env : SessionEnv) (now : ℕ) (item : AgentGuestSession)
    (f : SessionEnv → AgentGuestSession → Except StoreError AgentGuestSession) :
    Except StoreError (World × AgentGuestSession) := do
  let (r, row) ← (w.desktops item.desktopVmid).updateSession env now item f
  pure (w.put item.desktopVmid r, row)

variable (sha256 : Sha256)

def apply : Event → Except StoreError World
  | .createDesktopLease vmid env now lease => do
    ensure .alreadyLeased (!w.owners.any (·.1 == lease.id))
    let (r, _) ← Store.createDesktopLease env now lease (w.desktops vmid)
    pure { w.put vmid r with owners := (lease.id, vmid) :: w.owners }
  | .closeLease vmid p state bump => do
    ensure (.invalid "lease state") (state != .active)
    let (r, _) ← Store.closeLease p state bump (w.desktops vmid)
    pure (w.put vmid r)
  | .beginAgentGuestSession env now vmid leaseId agentId epoch => do
    let r ← (w.desktops vmid).beginSession sha256 env now vmid leaseId agentId epoch
    pure (w.put vmid r)
  | .bindAgentGuestAccount env now item revoking => do
    let (w, _) ← w.update env now item fun env row =>
      Store.bindAgentGuestAccount sha256 env row item revoking
    pure w
  | .beginAgentGuestLogin env now item => do
    let (w, row) ← w.update env now item fun env row =>
      Store.beginAgentGuestLogin sha256 env row item
    pure { w with returned := (row.leaseId, row.loginGeneration) :: w.returned }
  | .markAgentGuestSessionReady env now item => do
    let (w, _) ← w.update env now item fun env row =>
      Store.markAgentGuestSessionReady sha256 env row item
    pure w
  | .completeAgentGuestSessionRevocation env now item => do
    let (w, _) ← w.update env now item fun env row =>
      Store.completeAgentGuestSessionRevocation env row item
    pure w
  | .computerControlEpoch vmid => do
    let (r, _) ← Store.computerControlEpoch (w.desktops vmid)
    pure (w.put vmid r)
  | .completeComputerRevocation vmid revision => do
    let r ← Store.completeComputerRevocation revision (w.desktops vmid)
    pure (w.put vmid r)

end World

/-- The table from the first lease on; a failed transaction leaves no trace. -/
def sessionTable (sha256 : Sha256) : Machine World Event where
  Init w := (∀ d, (w.desktops d).active = none ∧ (w.desktops d).closed = [] ∧
    (w.desktops d).sessions = []) ∧ w.owners = [] ∧ w.returned = []
  step w e := (w.apply sha256 e).toOption

end Model

variable {sha256 : Sha256} {env : SessionEnv} {now vmid : ℕ}
  {g item : AgentGuestSession}

section Rows

variable {g' : AgentGuestSession} {lease : DesktopLease} {row : Option AgentGuestSession}

def replacement (row : AgentGuestSession) (lease : DesktopLease) : AgentGuestSession :=
  { row with
    leaseId := lease.id, controlEpoch := lease.controlEpoch
    generation := row.generation + 1, loginGeneration := 0, state := .provisioning
    sessionId := "", instanceId := "", expiresAt := lease.expiresAt }

/-- What `BeginAgentGuestSession` asks before it writes. -/
def admits (env : SessionEnv) (now : ℕ) (row : Option AgentGuestSession) (lease : DesktopLease) :
    Bool :=
  env.leaseLive && now < lease.expiresAt && !env.connectionOpen && !env.revocationPending &&
    !env.otherSession &&
    row.all fun row => row.state != .revoking && (!row.live || row.leaseId == lease.id)

theorem begin_eq_replacement (h : admits env now (some g) lease = true)
    (hos : g.osFamily = env.platform) (hst : g.state = .disabled) :
    beginAgentGuestSession sha256 env now vmid (some g) lease =
      writeSession env (some g) (replacement g lease) := by
  have hlive : g.live = false := by simp [AgentGuestSession.live, hst]
  have hpass : ensure StoreError.conflict (admits env now (some g) lease) = .ok () :=
    ensure_eq_ok.mpr h
  simp only [admits] at hpass
  simp only [beginAgentGuestSession, hpass, hlive]
  simp [hos, hst, replacement]
  rfl

structure Moved (g g' : AgentGuestSession) : Prop where
  agent : g'.agentId = g.agentId
  lease : g'.leaseId = g.leaseId
  epoch : g'.controlEpoch = g.controlEpoch
  live : g'.live = g.live
  enabled : g'.state ≠ .disabled → g.state ≠ .disabled
  login : g.loginGeneration ≤ g'.loginGeneration

theorem state_ne_of_live (h : g.live = true) : g.state ≠ .disabled := by
  intro hst
  simp [AgentGuestSession.live, hst] at h

end Rows

variable {r r' : Ledger} {row : AgentGuestSession}

section Desktop

variable {k : AgentGuestSession} {l old new : DesktopLease} {e : String × ℕ} {agentId : String}

/-- A row belongs to the active lease, or to a closed one of an earlier epoch. -/
inductive Placed (r : Ledger) (g : AgentGuestSession) : Prop
  | current {l : DesktopLease} (active : r.active = some l) (live : g.live = true)
      (lease : g.leaseId = l.id) (epoch : g.controlEpoch = l.controlEpoch)
      (agent : g.agentId = l.agentId)
  | past (live : g.live = false) (lease : ∃ l ∈ r.closed, l.id = g.leaseId)
      (epoch : g.controlEpoch ≤ r.counter)
      (below : ∀ l, r.active = some l → g.controlEpoch < l.controlEpoch)

structure DesktopOk (r : Ledger) : Prop where
  active : ∀ l, r.active = some l → l.controlEpoch ≤ r.counter
  placed : ∀ g ∈ r.sessions, Placed r g
  single : ∀ g ∈ r.sessions, ∀ k ∈ r.sessions, g.state ≠ .disabled → k.state ≠ .disabled → g = k

/-- The login of a lease was returned: its session has the generation, or the lease is closed. -/
def Reserved (r : Ledger) (e : String × ℕ) : Prop :=
  (∃ g ∈ r.sessions, g.leaseId = e.1 ∧ e.2 ≤ g.loginGeneration) ∨ ∃ l ∈ r.closed, l.id = e.1

theorem closed_ne_active (hl : r.active = some l) (hc : old ∈ r.closed) : old.id ≠ l.id := by
  have hnodup := r.valid.leases
  rw [hl, Option.toList_some, singleton_append, map_cons, nodup_cons] at hnodup
  exact fun heq => hnodup.1 (heq ▸ mem_map_of_mem hc)

theorem eq_of_agent (hg : g ∈ r.sessions) (hk : k ∈ r.sessions) (h : g.agentId = k.agentId) :
    g = k :=
  inj_on_of_nodup_map r.valid.sessions hg hk h

theorem DesktopOk.closes (h : DesktopOk r) (hc : Closes r old new r') : DesktopOk r' := by
  have hnext := hc.next
  have hcounter := hc.counter
  refine ⟨fun l hl => ?_, fun g' hg' => ?_, fun g' hg' k' hk' hgs hks => ?_⟩
  · rw [hc.after] at hl
    cases hl
  · rw [hc.sessions] at hg'
    obtain ⟨g, hg, rfl⟩ := mem_map.mp hg'
    have hnone : ∀ l, r'.active ≠ some l := fun l hl => by
      rw [hc.after] at hl
      cases hl
    cases h.placed g hg with
    | @current l hact hlive hlease hepoch hagent =>
      obtain rfl := Option.some.inj (hact.symm.trans hc.before)
      have hle := h.active l hact
      rw [revokeAgentGuestSession, if_pos ⟨hlease, hlive⟩]
      refine .past rfl ⟨new, hc.closed ▸ mem_cons_self, hc.id.trans hlease.symm⟩ ?_
        fun l hl => absurd hl (hnone l)
      change g.controlEpoch ≤ _
      omega
    | past hlive hlease hepoch =>
      obtain ⟨l, hl, hid⟩ := hlease
      rw [revokeAgentGuestSession, if_neg (by simp [hlive])]
      exact .past hlive ⟨l, hc.closed ▸ mem_cons_of_mem _ hl, hid⟩ (by omega)
        fun l hl => absurd hl (hnone l)
  · rw [hc.sessions] at hg' hk'
    obtain ⟨g, hg, rfl⟩ := mem_map.mp hg'
    obtain ⟨k, hk, rfl⟩ := mem_map.mp hk'
    have hstate : ∀ g, (revokeAgentGuestSession old.id g).state ≠ .disabled →
        g.state ≠ .disabled := by
      intro g hne
      unfold revokeAgentGuestSession at hne
      split at hne
      next hlive => exact state_ne_of_live hlive.2
      · exact hne
    rw [h.single g hg k hk (hstate g hgs) (hstate k hks)]

theorem DesktopOk.opens (h : DesktopOk r) (ho : Opens r l r') : DesktopOk r' := by
  have hnext := ho.next
  have hcounter := ho.counter
  refine ⟨fun l' hl' => ?_, fun g hg => ?_, ?_⟩
  · cases ho.after.symm.trans hl'
    exact hcounter.ge
  · cases h.placed g (ho.sessions ▸ hg) with
    | current hact =>
      rw [ho.before] at hact
      cases hact
    | past hlive hlease hepoch =>
      refine .past hlive (ho.closed ▸ hlease) (by omega) fun l' hl' => ?_
      cases ho.after.symm.trans hl'
      omega
  · rw [ho.sessions]
    exact h.single

structure Stays (r r' : Ledger) : Prop where
  active : r'.active = r.active
  closed : r'.closed = r.closed
  counter : r.counter ≤ r'.counter

theorem stays_of_keeps (h : Keeps r r') : Stays r r' := ⟨h.active, h.closed, h.counter⟩

theorem Placed.stays (h : Placed r g) (hk : Stays r r') : Placed r' g := by
  cases h with
  | current hact hlive hlease hepoch hagent =>
    exact .current (hk.active ▸ hact) hlive hlease hepoch hagent
  | past hlive hlease hepoch hbelow =>
    exact .past hlive (hk.closed ▸ hlease) (hepoch.trans hk.counter) (hk.active ▸ hbelow)

theorem Placed.moved (h : Placed r g) (hm : Moved g k) : Placed r k := by
  cases h with
  | current hact hlive hlease hepoch hagent =>
    exact .current hact (hm.live ▸ hlive) (hm.lease.trans hlease) (hm.epoch.trans hepoch)
      (hm.agent.trans hagent)
  | past hlive hlease hepoch hbelow =>
    exact .past (hm.live ▸ hlive) (hm.lease ▸ hlease) (hm.epoch ▸ hepoch) (hm.epoch ▸ hbelow)

structure Puts (r : Ledger) (row : AgentGuestSession) (r' : Ledger) : Prop where
  stays : Stays r r'
  rows : ∀ g, g ∈ r'.sessions ↔ g = row ∨ (g ∈ r.sessions ∧ g.agentId ≠ row.agentId)

theorem puts_of_commit (h : commit (r.putSession row) = .ok r') (hg : g ∈ r.sessions)
    (heq : g.agentId = row.agentId) : Puts r row r' := by
  refine ⟨stays_of_keeps (keeps_of_sessions h (by simp)), fun k => ?_⟩
  rw [commit_eq_ok h, Ledger.putSession, mem_map]
  constructor
  · rintro ⟨k, hk, rfl⟩
    split
    · exact .inl rfl
    next hne => exact .inr ⟨hk, hne⟩
  · rintro (rfl | ⟨hk, hne⟩)
    · exact ⟨g, hg, if_pos heq⟩
    · exact ⟨k, hk, if_neg hne⟩

theorem puts_of_append (h : commit { r.toLedgerRows with sessions := r.sessions ++ [row] } = .ok r')
    (hnew : ∀ g ∈ r.sessions, g.agentId ≠ row.agentId) : Puts r row r' := by
  refine ⟨stays_of_keeps (keeps_of_sessions h (by simp)), fun k => ?_⟩
  rw [commit_eq_ok h, mem_append, mem_singleton]
  constructor
  · rintro (hk | rfl)
    · exact .inr ⟨hk, hnew k hk⟩
    · exact .inl rfl
  · rintro (rfl | ⟨hk, -⟩)
    · exact .inr rfl
    · exact .inl hk

theorem DesktopOk.puts (h : DesktopOk r) (hp : Puts r row r') (hrow : Placed r row)
    (hsingle : row.state ≠ .disabled → ∀ k ∈ r.sessions, k.agentId ≠ row.agentId →
      k.state = .disabled) : DesktopOk r' := by
  refine ⟨fun l hl => (h.active l (hp.stays.active ▸ hl)).trans hp.stays.counter, fun g hg => ?_,
    fun g hg k hk hgs hks => ?_⟩
  · rcases (hp.rows g).mp hg with rfl | ⟨hg, -⟩
    · exact hrow.stays hp.stays
    · exact (h.placed g hg).stays hp.stays
  · rcases (hp.rows g).mp hg with rfl | ⟨hg, hgne⟩ <;>
      rcases (hp.rows k).mp hk with rfl | ⟨hk, hkne⟩
    · rfl
    · exact absurd (hsingle hgs k hk hkne) hks
    · exact absurd (hsingle hks g hg hgne) hgs
    · exact h.single g hg k hk hgs hks

theorem DesktopOk.others (h : DesktopOk r) (hg : g ∈ r.sessions) (hgs : g.state ≠ .disabled) :
    ∀ k ∈ r.sessions, k.agentId ≠ g.agentId → k.state = .disabled := by
  intro k hk hne
  by_contra hks
  exact hne (congrArg _ (h.single k hk g hg hks hgs))

theorem Reserved.puts (h : Reserved r e) (hp : Puts r row r')
    (hrow : ∀ g ∈ r.sessions, g.agentId = row.agentId →
      (row.leaseId = g.leaseId ∧ g.loginGeneration ≤ row.loginGeneration) ∨
        ∃ l ∈ r.closed, l.id = g.leaseId) : Reserved r' e := by
  rcases h with ⟨g, hg, hlease, hle⟩ | hclosed
  · by_cases hagent : g.agentId = row.agentId
    · rcases hrow g hg hagent with ⟨heq, hlogin⟩ | ⟨l, hl, hid⟩
      · exact .inl ⟨row, (hp.rows row).mpr (.inl rfl), heq.trans hlease, hle.trans hlogin⟩
      · exact .inr ⟨l, hp.stays.closed ▸ hl, hid.trans hlease⟩
    · exact .inl ⟨g, (hp.rows g).mpr (.inr ⟨hg, hagent⟩), hlease, hle⟩
  · exact .inr (hp.stays.closed ▸ hclosed)

def leaseIds (r : Ledger) : List String := (r.active.toList ++ r.closed).map (·.id)

/-- A transaction keeps a desktop in order and the returned logins reserved. -/
structure Evolves (r r' : Ledger) : Prop where
  ok : DesktopOk r'
  reserved : ∀ e, Reserved r e → Reserved r' e
  leases : ∀ id ∈ leaseIds r', id ∈ leaseIds r

theorem leaseIds_of_stays (hk : Stays r r') : leaseIds r' = leaseIds r := by
  rw [leaseIds, leaseIds, hk.active, hk.closed]

theorem evolves_stays (h : DesktopOk r) (hk : Stays r r') (hs : r'.sessions = r.sessions) :
    Evolves r r' where
  ok := ⟨fun l hl => (h.active l (hk.active ▸ hl)).trans hk.counter,
    fun g hg => (h.placed g (hs ▸ hg)).stays hk, hs ▸ h.single⟩
  reserved e he := by
    rw [Reserved, hs, hk.closed]
    exact he
  leases id hid := leaseIds_of_stays hk ▸ hid

theorem evolves_closes (h : DesktopOk r) (hc : Closes r old new r') : Evolves r r' where
  ok := h.closes hc
  reserved e he := by
    rcases he with ⟨g, hg, hlease, hle⟩ | ⟨l, hl, hid⟩
    · refine .inl ⟨revokeAgentGuestSession old.id g, ?_, ?_⟩
      · rw [hc.sessions]
        exact mem_map_of_mem hg
      · unfold revokeAgentGuestSession
        split
        · exact ⟨hlease, hle⟩
        · exact ⟨hlease, hle⟩
    · exact .inr ⟨l, hc.closed ▸ mem_cons_of_mem _ hl, hid⟩
  leases id hid := by
    simpa [leaseIds, hc.after, hc.closed, hc.before, hc.id] using hid

theorem evolves_moved {row₀ : AgentGuestSession} (h : DesktopOk r) (hrow : row₀ ∈ r.sessions)
    (hm : Moved row₀ row) (hc : commit (r.putSession row) = .ok r') : Evolves r r' := by
  have hp := puts_of_commit hc hrow hm.agent.symm
  refine ⟨h.puts hp ((h.placed row₀ hrow).moved hm) fun hst k hk hne => ?_, fun e he => ?_,
    fun id hid => leaseIds_of_stays hp.stays ▸ hid⟩
  · exact h.others hrow (hm.enabled hst) k hk (hm.agent ▸ hne)
  · refine he.puts hp fun g hg hagent => .inl ?_
    obtain rfl := eq_of_agent hg hrow (hagent.trans hm.agent)
    exact ⟨hm.lease, hm.login⟩

theorem disabled_of_other {epoch : ℕ} (h : DesktopOk r) (hact : r.active = some l)
    (hagent : l.agentId = agentId)
    (hother : (r.sessionEnv env now agentId l.id epoch).otherSession = false) :
    ∀ g ∈ r.sessions, g.agentId ≠ agentId → g.state = .disabled := by
  intro g hg hne
  have hlive : g.live = false := by
    cases h.placed g hg with
    | current hact' _ _ _ hagent' =>
      cases hact.symm.trans hact'
      exact absurd (hagent'.trans hagent) hne
    | past hlive => exact hlive
  simp only [Ledger.sessionEnv, any_eq_false, Bool.and_eq_true, Bool.or_eq_true, bne_iff_ne,
    beq_iff_eq, not_and, not_or] at hother
  have hst := (hother g hg hne).1
  cases hstate : g.state with
  | disabled => rfl
  | revoking => exact absurd hstate hst
  | provisioning | ready => simp [AgentGuestSession.live, hstate] at hlive

theorem session_some (h : r.session agentId = some g) : g ∈ r.sessions ∧ g.agentId = agentId :=
  ⟨mem_of_find?_eq_some h, by simpa using find?_some h⟩

theorem session_none (h : r.session agentId = none) : ∀ g ∈ r.sessions, g.agentId ≠ agentId := by
  intro g hg heq
  simpa [heq] using find?_eq_none.mp h g hg

theorem evolves_begin {leaseId : String} {epoch : ℕ} (h : DesktopOk r)
    (hb : r.beginSession sha256 env now vmid leaseId agentId epoch = .ok r') : Evolves r r' := by
  obtain ⟨lease, row, hact, hagent, hbegin, hcommit⟩ := beginSession_rows hb
  obtain ⟨hother, hrow⟩ := begin_ok hbegin
  have hdisabled := disabled_of_other h hact hagent hother
  cases hfind : r.session agentId with
  | none =>
    rw [hfind] at hrow hcommit
    have hs := hrow.resolve_left nofun
    have hnew : ∀ g ∈ r.sessions, g.agentId ≠ row.agentId := by
      rw [hs.agent, Option.elim_none, hagent]
      exact session_none hfind
    have hp := puts_of_append hcommit hnew
    refine ⟨h.puts hp (.current hact hs.live hs.leaseId hs.epoch hs.agent) fun _ k hk hne => ?_,
      fun e he => he.puts hp fun g hg heq => absurd heq (hnew g hg),
      fun id hid => leaseIds_of_stays hp.stays ▸ hid⟩
    exact hdisabled k hk (session_none hfind k hk)
  | some g =>
    obtain ⟨hg, hgagent⟩ := session_some hfind
    rw [hfind] at hrow hcommit
    rcases hrow with heq | hs
    · cases heq
      exact evolves_moved h hg ⟨rfl, rfl, rfl, rfl, id, le_rfl⟩ hcommit
    · have hsame : row.agentId = agentId := hs.agent.trans hgagent
      have hp := puts_of_commit hcommit hg (hgagent.trans hsame.symm)
      obtain ⟨hgst, -⟩ := hs.before g rfl
      refine ⟨h.puts hp (.current hact hs.live hs.leaseId hs.epoch (hsame.trans hagent.symm))
          fun _ k hk hne => hdisabled k hk (hsame ▸ hne), fun e he => he.puts hp ?_,
        fun id hid => leaseIds_of_stays hp.stays ▸ hid⟩
      -- the lease of the replaced row is closed
      intro k hk hkagent
      obtain rfl := eq_of_agent hk hg (hkagent.trans (hsame.trans hgagent.symm))
      cases h.placed k hk with
      | current _ hlive => exact absurd hgst (state_ne_of_live hlive)
      | past _ hlease => exact .inr hlease

theorem new_login (h : DesktopOk r) (hg : g ∈ r.sessions) (hlive : g.live = true)
    (he : Reserved r e) (hlease : e.1 = g.leaseId) : e.2 ≤ g.loginGeneration := by
  cases h.placed g hg with
  | past hno =>
    rw [hlive] at hno
    cases hno
  | @current l hact _ hl hepoch hagent =>
    rcases he with ⟨k, hk, hkl, hle⟩ | ⟨c, hc, hid⟩
    · cases h.placed k hk with
      | current hact' hklive =>
        exact h.single k hk g hg (state_ne_of_live hklive) (state_ne_of_live hlive) ▸ hle
      | past _ hclosed =>
        obtain ⟨c, hc, hid⟩ := hclosed
        exact absurd (hid.trans (hkl.trans (hlease.trans hl))) (closed_ne_active hact hc)
    · exact absurd (hid.trans (hlease.trans hl)) (closed_ne_active hact hc)

end Desktop

section Table

variable {w w' : World} {e : Event}
  {f : SessionEnv → AgentGuestSession → Except StoreError AgentGuestSession}

structure Sound (w : World) : Prop where
  desktop : ∀ d, DesktopOk (w.desktops d)
  owners : ∀ d, ∀ id ∈ leaseIds (w.desktops d), (id, d) ∈ w.owners
  unique : (w.owners.map Prod.fst).Nodup
  once : w.returned.Nodup
  reserved : ∀ e ∈ w.returned, ∃ d, Reserved (w.desktops d) e

theorem Sound.desktop_unique (h : Sound w) {d d' : ℕ} {id : String}
    (hd : id ∈ leaseIds (w.desktops d)) (hd' : id ∈ leaseIds (w.desktops d')) : d = d' := by
  have heq := inj_on_of_nodup_map h.unique (h.owners d id hd) (h.owners d' id hd') rfl
  exact (Prod.mk.inj heq).2

theorem leaseIds_of_reserved (h : DesktopOk r) {e : String × ℕ} (he : Reserved r e) :
    e.1 ∈ leaseIds r := by
  have hclosed : ∀ l ∈ r.closed, l.id ∈ leaseIds r :=
    fun l hl => mem_map_of_mem (mem_append_right _ hl)
  rcases he with ⟨g, hg, hlogin, -⟩ | ⟨l, hl, hid⟩
  · rw [← hlogin]
    cases h.placed g hg with
    | current hact _ hlease =>
      rw [hlease, leaseIds, hact]
      exact mem_cons_self
    | past _ hlease =>
      obtain ⟨l, hl, hid⟩ := hlease
      exact hid ▸ hclosed l hl
  · exact hid ▸ hclosed l hl

theorem Sound.put {owners returned : List (String × ℕ)} (h : Sound w) (hok : DesktopOk r')
    (hres : ∀ e, Reserved (w.desktops vmid) e → Reserved r' e)
    (hleases : ∀ id ∈ leaseIds r', (id, vmid) ∈ owners) (hsub : ∀ p ∈ w.owners, p ∈ owners)
    (hunique : (owners.map Prod.fst).Nodup) (honce : returned.Nodup)
    (hreturned : ∀ e ∈ returned, e ∈ w.returned ∨ Reserved r' e) :
    Sound ⟨(w.put vmid r').desktops, owners, returned⟩ := by
  have hself : (w.put vmid r').desktops vmid = r' := if_pos rfl
  have hother : ∀ d, d ≠ vmid → (w.put vmid r').desktops d = w.desktops d := fun d hd => if_neg hd
  refine ⟨fun d => ?_, fun d id hid => ?_, hunique, honce, fun e he => ?_⟩
  · by_cases hd : d = vmid
    · subst hd
      simpa only [hself] using hok
    · simpa only [hother d hd] using h.desktop d
  · by_cases hd : d = vmid
    · subst hd
      exact hleases id (by simpa only [hself] using hid)
    · exact hsub _ (h.owners d id (by simpa only [hother d hd] using hid))
  · rcases hreturned e he with hold | hnew
    · obtain ⟨d, hd⟩ := h.reserved e hold
      by_cases heq : d = vmid
      · subst heq
        exact ⟨d, by simpa only [hself] using hres e hd⟩
      · exact ⟨d, by simpa only [hother d heq] using hd⟩
    · exact ⟨vmid, by simpa only [hself] using hnew⟩

theorem Sound.evolves (h : Sound w) (he : Evolves (w.desktops vmid) r') : Sound (w.put vmid r') :=
  h.put he.ok he.reserved (fun id hid => h.owners vmid id (he.leases id hid)) (fun _ => id) h.unique
    h.once fun _ => .inl

theorem update_ok (h : w.update env now item f = .ok (w', row)) : ∃ r' row₀,
      row₀ ∈ (w.desktops item.desktopVmid).sessions ∧
      commit ((w.desktops item.desktopVmid).putSession row) = .ok r' ∧
      w' = w.put item.desktopVmid r' ∧ ∃ env', f env' row₀ = .ok row := by
  obtain ⟨⟨r', row'⟩, hupdate, h⟩ := bind_eq_ok.mp h
  cases h
  obtain ⟨row₀, hfind, hf, hcommit⟩ := updateSession_rows hupdate
  exact ⟨r', row₀, (session_some hfind).1, hcommit, rfl, _, hf⟩

theorem Sound.update (h : Sound w) (hf : ∀ env g g', f env g = .ok g' → Moved g g')
    (hu : w.update env now item f = .ok (w', row)) : Sound w' := by
  obtain ⟨r', row₀, hrow, hcommit, rfl, env', hok⟩ := update_ok hu
  exact h.evolves (evolves_moved (h.desktop _) hrow (hf env' row₀ row hok) hcommit)

theorem Sound.login (h : Sound w)
    (hu : w.update env now item (fun env row => beginAgentGuestLogin sha256 env row item) =
      .ok (w', row)) :
    Sound { w' with returned := (row.leaseId, row.loginGeneration) :: w'.returned } := by
  obtain ⟨r', g, hg, hcommit, rfl, env', hok⟩ := update_ok hu
  obtain ⟨hrow, -, -, hlive, -⟩ := login_ok hok
  have hm : Moved g row := by
    rw [hrow]
    exact ⟨rfl, rfl, rfl, hlive.symm, fun _ => state_ne_of_live hlive, Nat.le_succ _⟩
  have hd := h.desktop item.desktopVmid
  have hev := evolves_moved hd hg hm hcommit
  have hmem : row ∈ r'.sessions :=
    ((puts_of_commit hcommit hg hm.agent.symm).rows row).mpr (.inl rfl)
  refine h.put hev.ok hev.reserved (fun id hid => h.owners _ id (hev.leases id hid)) (fun _ => id)
    h.unique (nodup_cons.mpr ⟨fun hold => ?_, h.once⟩) fun e he => ?_
  · -- an earlier login of the lease was reserved on the same desktop
    obtain ⟨d, hres⟩ := h.reserved _ hold
    have hlease : g.leaseId ∈ leaseIds (w.desktops item.desktopVmid) :=
      leaseIds_of_reserved hd (e := (g.leaseId, 0)) (.inl ⟨g, hg, rfl, Nat.zero_le _⟩)
    have hsame := leaseIds_of_reserved (h.desktop d) hres
    rw [hm.lease] at hsame
    obtain rfl := h.desktop_unique hsame hlease
    have hle := new_login hd hg hlive hres hm.lease
    simp only [hrow] at hle
    omega
  · rcases mem_cons.mp he with rfl | hold
    · exact .inr (.inl ⟨row, hmem, rfl, le_rfl⟩)
    · exact .inl hold

theorem Sound.create {leaseEnv : LeaseEnv} {lease : DesktopLease} {c : Option ClosedLease}
    (h : Sound w) (hnew : w.owners.any (·.1 == lease.id) = false)
    (hc : createDesktopLease leaseEnv now lease (w.desktops vmid) = .ok (r', c)) :
    Sound { w.put vmid r' with owners := (lease.id, vmid) :: w.owners } := by
  obtain ⟨r₁, l, hclose, ho, hid⟩ := createDesktopLease_ok hc
  have hev : Evolves (w.desktops vmid) r₁ := by
    rcases hclose with ⟨-, rfl⟩ | ⟨old, new, -, hclose⟩
    · exact ⟨h.desktop vmid, fun _ => id, fun _ => id⟩
    · exact evolves_closes (h.desktop vmid) hclose
  refine h.put (hev.ok.opens ho) (fun e he => ?_) (fun id hmem => ?_)
    (fun p hp => mem_cons_of_mem _ hp) ?_ h.once fun _ => .inl
  · have hres := hev.reserved e he
    rw [Reserved, ho.sessions, ho.closed]
    exact hres
  · rw [leaseIds, ho.after, ho.closed, Option.toList_some, singleton_append,
      map_cons, mem_cons] at hmem
    rcases hmem with rfl | hmem
    · exact hid ▸ mem_cons_self
    · refine mem_cons_of_mem _ (h.owners vmid id (hev.leases id ?_))
      rw [leaseIds, map_append]
      exact mem_append_right _ hmem
  · rw [map_cons, nodup_cons]
    refine ⟨fun hmem => ?_, h.unique⟩
    obtain ⟨p, hp, heq⟩ := mem_map.mp hmem
    exact any_eq_false.mp hnew p hp (beq_iff_eq.mpr heq)

theorem sound_of_apply (h : Sound w) (ha : w.apply sha256 e = .ok w') : Sound w' := by
  cases e with
  | createDesktopLease vmid env now lease =>
    simp only [World.apply, seq_eq_ok, ensure_eq_ok, Bool.not_eq_true'] at ha
    obtain ⟨⟨r, c⟩, hcreate, hpure⟩ := bind_eq_ok.mp ha.2
    exact Except.ok.inj hpure ▸ h.create ha.1 hcreate
  | closeLease vmid p state bump =>
    simp only [World.apply, seq_eq_ok, ensure_eq_ok, bne_iff_ne] at ha
    obtain ⟨⟨r, c⟩, hclose, hpure⟩ := bind_eq_ok.mp ha.2
    cases hpure
    rcases closeLease_ok ha.1 hclose with ⟨-, rfl⟩ | ⟨old, new, -, hc⟩
    · exact h.evolves ⟨h.desktop vmid, fun _ => id, fun _ => id⟩
    · exact h.evolves (evolves_closes (h.desktop vmid) hc)
  | beginAgentGuestSession =>
    obtain ⟨r, hbegin, ha⟩ := bind_eq_ok.mp ha
    exact Except.ok.inj ha ▸ h.evolves (evolves_begin (h.desktop _) hbegin)
  | bindAgentGuestAccount =>
    obtain ⟨⟨v, row⟩, hu, ha⟩ := bind_eq_ok.mp ha
    refine Except.ok.inj ha ▸ h.update (fun _ _ _ hok => ?_) hu
    obtain ⟨rfl, -⟩ := bind_ok hok
    exact ⟨rfl, rfl, rfl, rfl, id, le_rfl⟩
  | beginAgentGuestLogin =>
    obtain ⟨⟨v, row⟩, hu, ha⟩ := bind_eq_ok.mp ha
    exact Except.ok.inj ha ▸ h.login hu
  | markAgentGuestSessionReady =>
    obtain ⟨⟨v, row⟩, hu, ha⟩ := bind_eq_ok.mp ha
    refine Except.ok.inj ha ▸ h.update (fun _ _ _ hok => ?_) hu
    obtain ⟨rfl, -, -, hlive, -⟩ := ready_ok hok
    exact ⟨rfl, rfl, rfl, hlive.symm, fun _ => state_ne_of_live hlive, le_rfl⟩
  | completeAgentGuestSessionRevocation =>
    obtain ⟨⟨v, row⟩, hu, ha⟩ := bind_eq_ok.mp ha
    refine Except.ok.inj ha ▸ h.update (fun _ _ _ hok => ?_) hu
    obtain ⟨rfl, -, -, -, -, -, hst⟩ := completeRevocation_ok hok
    exact ⟨rfl, rfl, rfl, by rw [AgentGuestSession.live, AgentGuestSession.live, hst]; rfl,
      fun hne => absurd rfl hne, le_rfl⟩
  | computerControlEpoch vmid =>
    obtain ⟨⟨r, n⟩, hc, ha⟩ := bind_eq_ok.mp ha
    cases ha
    have hsessions : r.sessions = (w.desktops vmid).sessions := by
      obtain ⟨r₁, hcommit, hc⟩ := bind_eq_ok.mp hc
      cases hc
      rw [commit_eq_ok hcommit]
    exact h.evolves (evolves_stays (h.desktop vmid) (stays_of_keeps (computerControlEpoch_ok hc))
      hsessions)
  | completeComputerRevocation vmid revision =>
    obtain ⟨r, hc, ha⟩ := bind_eq_ok.mp ha
    cases ha
    obtain ⟨rev, queue, -, -, hrows⟩ := completeComputerRevocation_ok hc
    have hstays : Stays (w.desktops vmid) r :=
      ⟨by rw [hrows], by rw [hrows], by rw [Ledger.counter, Ledger.counter, hrows]⟩
    exact h.evolves (evolves_stays (h.desktop vmid) hstays (by rw [hrows]))

theorem sound_of_reachable (hw : (sessionTable sha256).Reachable w) : Sound w := by
  refine hw.invariant (P := Sound) ?_ ?_
  · rintro w ⟨hempty, howners, hreturned⟩
    refine ⟨fun d => ?_, fun d id hid => ?_, by simp [howners], by simp [hreturned],
      by simp [hreturned]⟩
    · obtain ⟨hact, -, hs⟩ := hempty d
      constructor <;> simp [hact, hs]
    · obtain ⟨hact, hclosed, -⟩ := hempty d
      simp [leaseIds, hact, hclosed] at hid
  · exact fun w e w' _ hs hstep => sound_of_apply hs (toOption_eq_some.mp hstep)

theorem replacement_accepted {g : AgentGuestSession} {l : DesktopLease} (h : DesktopOk r)
    (hact : r.active = some l) (hg : g ∈ r.sessions) (hst : g.state = .disabled) :
    protectAgentGuestAccountBinding g (replacement g l) = .ok () ∧
      protectAgentLoginGeneration g (replacement g l) = .ok () := by
  refine ⟨by simp [protectAgentGuestAccountBinding, replacement], ?_⟩
  cases h.placed g hg with
  | current _ hlive => exact absurd hst (state_ne_of_live hlive)
  | past _ hlease _ hbelow =>
    obtain ⟨k, hk, hid⟩ := hlease
    have hne : l.id ≠ g.leaseId := fun heq => closed_ne_active hact hk (hid.trans heq.symm)
    simp [protectAgentLoginGeneration, replacement, hne, hst, hbelow l hact]

/-- The table of agent sessions: live sessions belong to active leases, one to a desktop, a login
generation is returned once, and a new lease may replace a disabled row. -/
theorem agent_guest_sessions (hw : (sessionTable sha256).Reachable w) :
    (∀ d, ∀ g ∈ (w.desktops d).sessions, g.state = .provisioning ∨ g.state = .ready →
      ∃ l, (w.desktops d).active = some l ∧ l.state = .active ∧ l.id = g.leaseId ∧
        l.controlEpoch = g.controlEpoch) ∧
    (∀ d, ∀ g ∈ (w.desktops d).sessions, ∀ k ∈ (w.desktops d).sessions,
      g.state ≠ .disabled → k.state ≠ .disabled → g = k) ∧
    w.returned.Nodup ∧ (∀ d l, (w.desktops d).active = some l → ∀ row ∈ (w.desktops d).sessions,
      row.state = .disabled → ∀ env now, row.osFamily = env.platform →
      admits env now (some row) l = true →
      beginAgentGuestSession sha256 env now d (some row) l =
          writeSession env (some row) (replacement row l) ∧
        protectAgentGuestAccountBinding row (replacement row l) = .ok () ∧
        protectAgentLoginGeneration row (replacement row l) = .ok ()) := by
  have h := sound_of_reachable hw
  refine ⟨fun d g hg hst => ?_, fun d => (h.desktop d).single, h.once,
    fun d l hact row hrow hst env now hos hadmits =>
      ⟨begin_eq_replacement hadmits hos hst, replacement_accepted (h.desktop d) hact hrow hst⟩⟩
  have hlive : g.live = true := by
    rcases hst with hst | hst <;> simp [AgentGuestSession.live, hst]
  cases (h.desktop d).placed g hg with
  | @current l hact _ hlease hepoch _ =>
    have hvalid := (w.desktops d).valid.active
    rw [hact] at hvalid
    exact ⟨l, hact, by simpa using hvalid, hlease.symm, hepoch.symm⟩
  | past hno =>
    rw [hlive] at hno
    cases hno

end Table

section Sample

def sampleLedger : Ledger := ⟨⟨none, none, [], none, []⟩, LedgerRows.valid_empty⟩

def sampleWorld : World := ⟨fun _ => sampleLedger, [], []⟩

def sampleEnv : SessionEnv := ⟨true, .linux, false, false, false, false⟩

def sampleItem (login : ℕ) : AgentGuestSession :=
  ⟨100, "agent", "vca000000000000", .linux, "lease_1", 1, 1, login, .provisioning, 1000, "", "", "",
    10⟩

def sampleRun : List Event :=
  [.createDesktopLease 100 ⟨true, false, false⟩ 0 ⟨"lease_1", "agent", .active, 0, 10, by decide⟩,
    .beginAgentGuestSession sampleEnv 0 100 "lease_1" "agent" 1,
    .bindAgentGuestAccount sampleEnv 0 (sampleItem 0) false,
    .beginAgentGuestLogin sampleEnv 0 (sampleItem 0),
    .beginAgentGuestLogin sampleEnv 0 (sampleItem 1),
    .closeLease 100 (fun _ => true) .released true,
    .completeAgentGuestSessionRevocation sampleEnv 0 (sampleItem 2),
    .completeComputerRevocation 100 1,
    .createDesktopLease 100 ⟨true, false, false⟩ 0 ⟨"lease_2", "agent", .active, 0, 10, by decide⟩,
    .beginAgentGuestSession sampleEnv 0 100 "lease_2" "agent" 3]

/-- After the replacement the session is the one of the second lease. -/
theorem agent_guest_sessions_replaced : ∃ w, (sessionTable sampleDigest).Reachable w ∧
      w.returned = [("lease_1", 2), ("lease_1", 1)] ∧ w.returned.Nodup ∧
      ∃ g ∈ (w.desktops 100).sessions, g.leaseId = "lease_2" ∧
        ∃ l, (w.desktops 100).active = some l ∧ l.state = .active ∧ l.id = "lease_2" := by
  obtain ⟨w, hw, hreturned, hany⟩ : ∃ w, (sessionTable sampleDigest).Reachable w ∧
      w.returned = [("lease_1", 2), ("lease_1", 1)] ∧
      ((w.desktops 100).sessions.any fun g => g.leaseId == "lease_2" &&
        g.state == .provisioning) = true :=
    Machine.exists_reachable_of_run sampleWorld sampleRun
      ⟨fun _ => ⟨rfl, rfl, rfl⟩, rfl, rfl⟩ (by decide +kernel)
  obtain ⟨g, hg, hp⟩ := any_eq_true.mp hany
  simp only [Bool.and_eq_true, beq_iff_eq] at hp
  obtain ⟨hlive, -, honce, -⟩ := agent_guest_sessions hw
  obtain ⟨l, hl, hst, hid, -⟩ := hlive 100 g hg (.inl hp.2)
  exact ⟨w, hw, hreturned, honce, g, hg, hp.1, l, hl, hst, hid.trans hp.1⟩

end Sample

end VcWorkspace.Store.SessionTable
