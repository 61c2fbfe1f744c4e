import Kikimora.Control.Parking

/-!
# Observations and the fast path

The platform observer numbers its events and sends them through a bounded
stream; the reconciler batches and processes them, and audits. The fast path of
Ensure trusts one counter, the sequence up to which everything is supposed to
have been handled. The observer, the reconciler, the kernel reads behind the
verification tokens and the Ensure calls interleave arbitrarily.

The sequence is a natural number: the process stops when the counter overflows.
The gate of Ensure reads the processed sequence before the current one. Neither
ever falls and the first is never ahead, so that the two are equal at the second
read, and one state decides.
-/

namespace Kikimora.Control

open Net Routing

-- === Events ===

inductive SelectedRouteInvalidationKind
  | pfx
  | interface
  | full
  deriving DecidableEq, Repr

/-- One event of the native observer. -/
structure SelectedRouteInvalidation where
  kind : SelectedRouteInvalidationKind
  pfx : Prefix := .zero
  ifIndex : Int := 0
  sequence : Nat
  deriving DecidableEq, Repr

def SelectedRouteInvalidation.Covers (ev : SelectedRouteInvalidation) (pfx : Prefix)
    (ifIndex : Int) : Prop :=
  match ev.kind with
  | .pfx => ev.pfx = pfx
  | .interface => ev.ifIndex = ifIndex
  | .full => True

def SelectedRouteInvalidation.CoveredBy (ev by_ : SelectedRouteInvalidation) : Prop :=
  ∀ pfx ifIndex, ev.Covers pfx ifIndex → by_.Covers pfx ifIndex

def mergeInvalidations (a b : SelectedRouteInvalidation) : SelectedRouteInvalidation :=
  let sequence := max a.sequence b.sequence
  if a.kind = .full ∨ b.kind = .full then { kind := .full, sequence := sequence }
  else if a.kind = .pfx ∧ b.kind = .pfx ∧ a.pfx = b.pfx then
    { kind := .pfx, pfx := a.pfx, sequence := sequence }
  else if a.kind = .interface ∧ b.kind = .interface ∧ a.ifIndex = b.ifIndex then
    { kind := .interface, ifIndex := a.ifIndex, sequence := sequence }
  else { kind := .full, sequence := sequence }

def extendBatch (batch next : SelectedRouteInvalidation) : SelectedRouteInvalidation :=
  if next.sequence ≠ batch.sequence + 1 ∧ next.sequence > batch.sequence then
    { kind := .full, sequence := next.sequence }
  else mergeInvalidations { batch with sequence := max batch.sequence next.sequence } next

@[simp] theorem sequence_mergeInvalidations (a b : SelectedRouteInvalidation) :
    (mergeInvalidations a b).sequence = max a.sequence b.sequence := by
  unfold mergeInvalidations
  split_ifs <;> rfl

theorem sequence_extendBatch (batch next : SelectedRouteInvalidation) :
    (extendBatch batch next).sequence = max batch.sequence next.sequence := by
  unfold extendBatch
  split_ifs with h
  · exact (max_eq_right h.2.le).symm
  · simp

theorem coveredBy_full (ev : SelectedRouteInvalidation) {by_ : SelectedRouteInvalidation}
    (h : by_.kind = .full) : ev.CoveredBy by_ := by
  intro pfx ifIndex _
  simp [SelectedRouteInvalidation.Covers, h]

theorem coveredBy_merge (a b : SelectedRouteInvalidation) :
    a.CoveredBy (mergeInvalidations a b) ∧ b.CoveredBy (mergeInvalidations a b) := by
  unfold mergeInvalidations
  split_ifs with hfull hpfx hif
  · exact ⟨coveredBy_full a rfl, coveredBy_full b rfl⟩
  · obtain ⟨ha, hb, heq⟩ := hpfx
    constructor <;> intro pfx ifIndex h
    · simpa [SelectedRouteInvalidation.Covers, ha] using h
    · simpa [SelectedRouteInvalidation.Covers, hb, heq] using h
  · obtain ⟨ha, hb, heq⟩ := hif
    constructor <;> intro pfx ifIndex h
    · simpa [SelectedRouteInvalidation.Covers, ha] using h
    · simpa [SelectedRouteInvalidation.Covers, hb, heq] using h
  · exact ⟨coveredBy_full a rfl, coveredBy_full b rfl⟩

theorem coveredBy_extendBatch (batch next : SelectedRouteInvalidation) :
    batch.CoveredBy (extendBatch batch next) ∧ next.CoveredBy (extendBatch batch next) := by
  unfold extendBatch
  split_ifs
  · exact ⟨coveredBy_full batch rfl, coveredBy_full next rfl⟩
  · exact coveredBy_merge { batch with sequence := max batch.sequence next.sequence } next

/-- A batch that is not Full after the extension was not Full before, and had no
    gap. -/
theorem extendBatch_targeted {batch next : SelectedRouteInvalidation}
    (h : (extendBatch batch next).kind ≠ .full) :
    batch.kind ≠ .full ∧ next.sequence ≤ batch.sequence + 1 := by
  unfold extendBatch at h
  split_ifs at h with hgap
  · exact absurd rfl h
  refine ⟨fun hfull => h ?_, ?_⟩
  · simp [mergeInvalidations, hfull]
  · by_contra hlt
    exact hgap ⟨by omega, by omega⟩

-- === The system ===

inductive ObserverStream
  /-- concurrent callbacks; a full stream drops the event -/
  | windows
  /-- one goroutine; a full stream blocks it -/
  | linux
  deriving DecidableEq, Repr

def streamCapacity : Nat := 64

/-- A batch with the numbers of the events it was merged from. -/
structure EventBatch where
  first : Nat
  members : List Nat
  scope : SelectedRouteInvalidation
  deriving DecidableEq, Repr

def EventBatch.start (ev : SelectedRouteInvalidation) : EventBatch :=
  ⟨ev.sequence, [ev.sequence], ev⟩

def EventBatch.extend (b : EventBatch) (ev : SelectedRouteInvalidation) : EventBatch :=
  ⟨b.first, ev.sequence :: b.members, extendBatch b.scope ev⟩

/-- On whose behalf an audit runs. -/
inductive AuditPurpose
  /-- `initialAuthorityProof` -/
  | proof
  | tick
  | batch (b : EventBatch)
  deriving DecidableEq, Repr

/-- Where the reconciler's goroutine is. -/
inductive ReconcilerPhase
  /-- no subscription: before the first proof and after the observer was lost -/
  | detached
  | idle
  /-- `handleEventBatch` drains the stream -/
  | collecting (b : EventBatch)
  /-- a prefix or interface batch, its tokens cleared -/
  | processing (b : EventBatch)
  /-- an audit, before and after its stable snapshot -/
  | auditing (purpose : AuditPurpose) (snapshot : Option Nat)
  deriving DecidableEq, Repr

/-- A kernel read whose token is not minted yet. -/
structure KernelRead where
  role : String
  entry : SelectedRoute
  readAt : Nat

structure Observation where
  memory : Memory
  /-- `CurrentSelectedRouteSequence` -/
  current : Nat := 0
  /-- `processedSequence` -/
  processed : Nat := 0
  /-- every event ever numbered -/
  issued : List SelectedRouteInvalidation := []
  /-- numbered, not sent yet -/
  pending : List SelectedRouteInvalidation := []
  /-- the sender whose first attempt met a full stream; it holds the send lock -/
  retrying : Option SelectedRouteInvalidation := none
  channel : List SelectedRouteInvalidation := []
  phase : ReconcilerPhase := .detached
  reads : List KernelRead := []
  /-- the sequence at the kernel read behind the token of a role and prefix -/
  readAt : String → Prefix → Nat := fun _ _ => 0
  /-- the batches that were processed successfully -/
  succeeded : List EventBatch := []
  /-- the largest snapshot sequence of a successful audit -/
  audited : Nat := 0

def Memory.clearAllVerification (m : Memory) : Memory := m.keepVerification fun _ _ => false

def Memory.clearVerificationForIfindex (m : Memory) (ifIndex : Int) : Memory :=
  m.keepVerification fun _ token => token.identity.ifIndex ≠ ifIndex

def Observation.noteProcessedSequence (s : Observation) (sequence : Nat) : Observation :=
  { s with processed := max s.processed sequence }

def Observation.mint (s : Observation) (r : KernelRead) : Observation :=
  { s with
    memory := s.memory.mintToken r.role r.entry
    readAt := fun role pfx =>
      if role = r.role ∧ pfx = r.entry.pfx then r.readAt else s.readAt role pfx }

def Observation.detach (s : Observation) : Observation :=
  { s with pending := [], retrying := none, channel := [], phase := .detached }

def Observation.completeBatch (s : Observation) (b : EventBatch) : Observation :=
  { s.noteProcessedSequence b.scope.sequence with succeeded := b :: s.succeeded, phase := .idle }

def Observation.completeAudit (s : Observation) (purpose : AuditPurpose) (snapshot : Nat) :
    Observation :=
  let proved := { s.noteProcessedSequence snapshot with audited := max s.audited snapshot }
  match purpose with
  | .proof | .tick => { proved with phase := .idle }
  | .batch b => proved.completeBatch b

def Observation.abandonAudit (s : Observation) (purpose : AuditPurpose) : Observation :=
  match purpose with
  | .proof => s.detach
  | .tick | .batch _ => { s with memory := s.memory.clearAllVerification, phase := .idle }

def Observation.processBatch (s : Observation) (b : EventBatch) : Observation :=
  match b.scope.kind with
  | .pfx => { s with
      memory := s.memory.clearVerificationForPrefix b.scope.pfx, phase := .processing b }
  | .interface => { s with
      memory := s.memory.clearVerificationForIfindex b.scope.ifIndex, phase := .processing b }
  | .full => { s with
      memory := s.memory.clearAllVerification, phase := .auditing (.batch b) none }

inductive ObserverMove
  /-- the observer numbers an event -/
  | issue (kind : SelectedRouteInvalidationKind) (pfx : Prefix) (ifIndex : Int)
  /-- a sender makes its first attempt -/
  | send (i : Nat)
  /-- its second attempt, as a Full event -/
  | retry
  | subscribe
  | tick
  | receive
  /-- the debounce ends -/
  | process
  /-- the handlers of a prefix or interface batch return -/
  | finish (ok : Bool)
  | snapshot
  | auditMint (role : String) (entry : SelectedRoute)
  | finishAudit (ok : Bool)
  /-- the stream was closed -/
  | lose
  /-- a transaction reads the kernel, and mints its token later -/
  | read (role : String) (entry : SelectedRoute)
  | mint (i : Nat)
  /-- any operation changes the registry, or the flags of a role -/
  | registry (r : MemorySelectedRegistry)
  | flags (role : String) (state : SelectedRoleState) (keepTokens : Bool)

def Observation.step (stream : ObserverStream) (s : Observation) : ObserverMove → Option Observation
  | .issue kind pfx ifIndex =>
    let ev := ⟨kind, pfx, ifIndex, s.current + 1⟩
    let numbered := { s with current := s.current + 1, issued := ev :: s.issued }
    if s.phase = .detached then some numbered
    else if stream = .linux ∧ s.pending ≠ [] then none
    else some { numbered with pending := s.pending ++ [ev] }
  | .send i =>
    match s.pending[i]?, s.retrying with
    | some ev, none =>
      let taken := { s with pending := s.pending.eraseIdx i }
      if s.channel.length < streamCapacity then some { taken with channel := s.channel ++ [ev] }
      else match stream with
        | .windows => some { taken with retrying := some ev }
        | .linux => none
    | _, _ => none
  | .retry =>
    match s.retrying with
    | none => none
    | some ev =>
      let released := { s with retrying := none }
      if s.channel.length < streamCapacity then
        some { released with channel := s.channel ++ [{ kind := .full, sequence := ev.sequence }] }
      else some released
  | .subscribe =>
    if s.phase = .detached then some { s with phase := .auditing .proof none } else none
  | .tick => if s.phase = .idle then some { s with phase := .auditing .tick none } else none
  | .receive =>
    match s.channel, s.phase with
    | ev :: rest, .idle => some { s with channel := rest, phase := .collecting (.start ev) }
    | ev :: rest, .collecting b =>
      some { s with channel := rest, phase := .collecting (b.extend ev) }
    | _, _ => none
  | .process =>
    match s.phase with
    | .collecting b => some (s.processBatch b)
    | _ => none
  | .finish ok =>
    match s.phase with
    | .processing b => some (if ok then s.completeBatch b else { s with phase := .idle })
    | _ => none
  | .snapshot =>
    match s.phase with
    | .auditing purpose none => some { s with phase := .auditing purpose (some s.current) }
    | _ => none
  | .auditMint role entry =>
    match s.phase with
    | .auditing _ (some n) => some (s.mint ⟨role, entry, n⟩)
    | _ => none
  | .finishAudit ok =>
    match s.phase, ok with
    | .auditing purpose (some n), true => some (s.completeAudit purpose n)
    | .auditing purpose _, false => some (s.abandonAudit purpose)
    | _, _ => none
  | .lose =>
    if s.phase = .idle ∧ s.channel = [] then
      some { s.detach with memory := s.memory.clearAllVerification }
    else none
  | .read role entry => some { s with reads := ⟨role, entry, s.current⟩ :: s.reads }
  | .mint i =>
    match s.reads[i]? with
    | some r => some { s.mint r with reads := s.reads.eraseIdx i }
    | none => none
  | .registry r => some { s with memory := { s.memory with registry := r } }
  | .flags role state keepTokens =>
    let kept := if keepTokens then (s.memory.roleState role).verification else fun _ => none
    some { s with memory := s.memory.setRole role { state with verification := kept } }

def Observation.Handled (s : Observation) (ev : SelectedRouteInvalidation) : Prop :=
  (∃ b ∈ s.succeeded, ev.sequence ∈ b.members ∧ ev.CoveredBy b.scope) ∨ ev.sequence ≤ s.audited

/-- Wherever Ensure would answer without I/O, every event that covers its prefix
    and came after the kernel read of the token has been handled. -/
def Observation.FastPathSound (s : Observation) : Prop :=
  ∀ (role : String) (a : EnsureRequest) (identity : SelectedRouteIdentity),
    fastPath s.memory role a (s.processed = s.current) identity = true →
      ∀ ev ∈ s.issued, ev.sequence ≤ s.current → ev.Covers a.pfx identity.ifIndex →
        s.readAt role a.pfx < ev.sequence → s.Handled ev

/-- The states reached by moves that satisfy `C`, from a process without tokens. -/
inductive ObservationRun (stream : ObserverStream) (C : Observation → ObserverMove → Bool) :
    Observation → Prop
  | start {m : Memory} (h : ∀ role pfx, (m.roleState role).verification pfx = none) :
      ObservationRun stream C { memory := m }
  | move {s s' : Observation} {move : ObserverMove} (h : ObservationRun stream C s)
      (hc : C s move = true) (hs : s.step stream move = some s') : ObservationRun stream C s'

/-- A prefix or interface batch that is about to succeed begins at most one past
    what is processed. -/
def contiguous (s : Observation) (move : ObserverMove) : Bool :=
  match move, s.phase with
  | .finish true, .processing b => b.first ≤ s.processed + 1
  | _, _ => true

def Observation.play (stream : ObserverStream) (C : Observation → ObserverMove → Bool)
    (s : Observation) : List ObserverMove → Option Observation
  | [] => some s
  | move :: moves =>
    if C s move then (s.step stream move).bind fun s' => s'.play stream C moves else none

-- === What the processed sequence stands for ===

section

variable {issued : List SelectedRouteInvalidation} {current : Nat} {s s' : Observation}

def Stands (issued : List SelectedRouteInvalidation) (current : Nat)
    (item : SelectedRouteInvalidation) : Prop :=
  item.sequence ≤ current ∧ ∀ ev ∈ issued, ev.sequence = item.sequence → ev.CoveredBy item

/-- The batch covers its members, and a targeted one has no gap. -/
structure Accounts (issued : List SelectedRouteInvalidation) (current : Nat)
    (b : EventBatch) : Prop where
  le : b.scope.sequence ≤ current
  members_le : ∀ n ∈ b.members, n ≤ current
  covers : ∀ ev ∈ issued, ev.sequence ∈ b.members → ev.CoveredBy b.scope
  interval : b.scope.kind ≠ .full → ∀ n, b.first ≤ n → n ≤ b.scope.sequence → n ∈ b.members

variable {ev : SelectedRouteInvalidation} {b : EventBatch} {n : Nat} {stream : ObserverStream}

theorem Stands.batch (h : Stands issued current ev) : Accounts issued current (.start ev) := by
  refine ⟨h.1, ?_, ?_, ?_⟩
  · intro n hn
    rw [List.mem_singleton.mp hn]
    exact h.1
  · intro e he hmem
    exact h.2 e he (List.mem_singleton.mp hmem)
  · intro _ n hfirst hlast
    exact List.mem_singleton.mpr (le_antisymm hlast hfirst)

theorem Accounts.extend (h : Accounts issued current b) (hev : Stands issued current ev) :
    Accounts issued current (b.extend ev) := by
  obtain ⟨hold, hnew⟩ := coveredBy_extendBatch b.scope ev
  have hseq : (b.extend ev).scope.sequence = max b.scope.sequence ev.sequence :=
    sequence_extendBatch b.scope ev
  refine ⟨?_, ?_, ?_, ?_⟩
  · rw [hseq]
    exact max_le h.le hev.1
  · intro n hn
    rcases List.mem_cons.mp hn with rfl | hn
    · exact hev.1
    · exact h.members_le n hn
  · intro e he hmem pfx ifIndex hc
    rcases List.mem_cons.mp hmem with heq | hmem
    · exact hnew pfx ifIndex (hev.2 e he heq pfx ifIndex hc)
    · exact hold pfx ifIndex (h.covers e he hmem pfx ifIndex hc)
  intro hkind n hfirst hlast
  obtain ⟨htargeted, hgap⟩ := extendBatch_targeted hkind
  by_cases hn : n ≤ b.scope.sequence
  · exact List.mem_cons_of_mem _ (h.interval htargeted n hfirst hn)
  · have heq : n = ev.sequence := by omega
    exact heq ▸ List.mem_cons_self

theorem Stands.issue {item : SelectedRouteInvalidation} (h : Stands issued current item)
    (hev : ev.sequence = current + 1) : Stands (ev :: issued) (current + 1) item := by
  refine ⟨by have := h.1; omega, ?_⟩
  intro e he heq
  rcases List.mem_cons.mp he with rfl | he
  · have := h.1
    omega
  · exact h.2 e he heq

theorem Accounts.issue (h : Accounts issued current b) (hev : ev.sequence = current + 1) :
    Accounts (ev :: issued) (current + 1) b := by
  refine ⟨by have := h.le; omega, fun n hn => by have := h.members_le n hn; omega, ?_, h.interval⟩
  intro e he hmem
  rcases List.mem_cons.mp he with rfl | he
  · have := h.members_le _ hmem
    omega
  · exact h.covers e he hmem

def Observation.inTransit (s : Observation) : List SelectedRouteInvalidation :=
  s.pending ++ s.retrying.toList ++ s.channel

def ReconcilerPhase.openBatch : ReconcilerPhase → Option EventBatch
  | .collecting b | .processing b | .auditing (.batch b) _ => some b
  | _ => none

/-- A Full batch is audited, and the snapshot of an audit is not older than the
    batch it runs for. -/
def ReconcilerPhase.Coherent (current : Nat) : ReconcilerPhase → Prop
  | .processing b => b.scope.kind ≠ .full
  | .auditing purpose (some n) => n ≤ current ∧ ∀ b, purpose = .batch b → b.scope.sequence ≤ n
  | _ => True

/-- Everything up to the processed sequence is handled. -/
structure Observation.Inv (s : Observation) : Prop where
  processed_le : s.processed ≤ s.current
  issued_le : ∀ ev ∈ s.issued, ev.sequence ≤ s.current
  handled : ∀ ev ∈ s.issued, ev.sequence ≤ s.processed → s.Handled ev
  transit : ∀ item ∈ s.inTransit, Stands s.issued s.current item
  openBatch : ∀ b, s.phase.openBatch = some b → Accounts s.issued s.current b
  coherent : s.phase.Coherent s.current

variable (h : s.Inv)

include h

theorem Observation.Inv.withTokens (m : Memory) (reads : List KernelRead)
    (readAt : String → Prefix → Nat) :
    ({ s with memory := m, reads := reads, readAt := readAt } : Observation).Inv :=
  ⟨h.processed_le, h.issued_le, h.handled, h.transit, h.openBatch, h.coherent⟩

theorem Observation.Inv.withPhase {phase : ReconcilerPhase}
    (hb : ∀ b, phase.openBatch = some b → Accounts s.issued s.current b)
    (hn : phase.Coherent s.current) : ({ s with phase := phase } : Observation).Inv :=
  ⟨h.processed_le, h.issued_le, h.handled, h.transit, hb, hn⟩

theorem Observation.Inv.withTransit (pending : List SelectedRouteInvalidation)
    (retrying : Option SelectedRouteInvalidation) (channel : List SelectedRouteInvalidation)
    (ht : ∀ item ∈ pending ++ retrying.toList ++ channel, Stands s.issued s.current item) :
    ({ s with pending := pending, retrying := retrying, channel := channel } : Observation).Inv :=
  ⟨h.processed_le, h.issued_le, h.handled, ht, h.openBatch, h.coherent⟩

theorem Observation.Inv.toIdle : ({ s with phase := .idle } : Observation).Inv :=
  h.withPhase nofun trivial

theorem Observation.Inv.detach : s.detach.Inv :=
  (h.withTransit [] none [] nofun).withPhase nofun trivial

theorem Observation.Inv.completeBatch (hb : Accounts s.issued s.current b)
    (hall : ∀ n, s.processed < n → n ≤ b.scope.sequence → n ∈ b.members) : (s.completeBatch b).Inv
    := by
  refine ⟨max_le h.processed_le hb.le, h.issued_le, ?_, h.transit, nofun, trivial⟩
  intro ev hev hle
  by_cases hold : ev.sequence ≤ s.processed
  · rcases h.handled ev hev hold with ⟨b', hb', hmem⟩ | haudited
    · exact Or.inl ⟨b', List.mem_cons_of_mem _ hb', hmem⟩
    · exact Or.inr haudited
  · have hmem : ev.sequence ∈ b.members :=
      hall _ (not_le.mp hold) ((le_max_iff.mp hle).resolve_left hold)
    exact Or.inl ⟨b, List.mem_cons_self, hmem, hb.covers ev hev hmem⟩

theorem Observation.Inv.audited (hn : n ≤ s.current) :
    ({ s.noteProcessedSequence n with audited := max s.audited n } : Observation).Inv := by
  refine ⟨max_le h.processed_le hn, h.issued_le, ?_, h.transit, h.openBatch, h.coherent⟩
  intro ev hev hle
  rcases le_max_iff.mp hle with hold | hnew
  · rcases h.handled ev hev hold with hdone | haudited
    · exact Or.inl hdone
    · exact Or.inr (le_max_of_le_left haudited)
  · exact Or.inr (le_max_of_le_right hnew)

theorem Observation.Inv.completeAudit {purpose : AuditPurpose}
    (hp : s.phase = .auditing purpose (some n)) : (s.completeAudit purpose n).Inv := by
  have hsnap := h.coherent
  rw [hp] at hsnap
  have haudited := h.audited hsnap.1
  cases purpose with
  | proof | tick => exact haudited.toIdle
  | batch b =>
    refine haudited.completeBatch (h.openBatch b (by rw [hp]; rfl)) ?_
    -- the snapshot is past the batch, so that the batch adds nothing
    intro m hm hle
    have hb : b.scope.sequence ≤ n := hsnap.2 b rfl
    have hn : n < m := lt_of_le_of_lt (le_max_right s.processed n) hm
    omega

theorem Observation.Inv.abandonAudit (purpose : AuditPurpose) : (s.abandonAudit purpose).Inv := by
  cases purpose with
  | proof => exact h.detach
  | tick | batch b => exact (h.withTokens _ s.reads s.readAt).toIdle

theorem Observation.Inv.processBatch (hp : s.phase = .collecting b) : (s.processBatch b).Inv := by
  have hb : ∀ b', some b = some b' → Accounts s.issued s.current b' := by
    intro b' heq
    exact h.openBatch b' (by rw [hp]; exact heq)
  unfold Observation.processBatch
  split
  · next hk =>
    exact (h.withTokens _ s.reads s.readAt).withPhase hb (by simp [ReconcilerPhase.Coherent, hk])
  · next hk =>
    exact (h.withTokens _ s.reads s.readAt).withPhase hb (by simp [ReconcilerPhase.Coherent, hk])
  · exact (h.withTokens _ s.reads s.readAt).withPhase hb trivial

omit h

theorem ReconcilerPhase.Coherent.mono {phase : ReconcilerPhase} {m : Nat} (h : phase.Coherent n)
    (hle : n ≤ m) : phase.Coherent m := by
  unfold Coherent at h ⊢
  split at h
  · exact h
  · exact ⟨h.1.trans hle, h.2⟩
  · trivial

theorem Observation.Inv.issue (h : s.Inv) (hev : ev.sequence = s.current + 1)
    {queue : List SelectedRouteInvalidation} (hq : ∀ item ∈ queue, item = ev ∨ item ∈ s.pending) :
    ({ s with current := s.current + 1, issued := ev :: s.issued, pending := queue } :
      Observation).Inv := by
  refine ⟨h.processed_le.trans (Nat.le_succ _), ?_, ?_, ?_, ?_, h.coherent.mono (Nat.le_succ _)⟩
  · intro e he
    rcases List.mem_cons.mp he with rfl | he
    · exact hev.le
    · exact (h.issued_le e he).trans (Nat.le_succ _)
  · intro e he hle
    rcases List.mem_cons.mp he with rfl | he
    · have := h.processed_le
      simp only [hev] at hle
      omega
    · exact h.handled e he hle
  · intro item hitem
    have hcases : item = ev ∨ item ∈ s.inTransit := by
      simp only [inTransit, List.mem_append] at hitem ⊢
      rcases hitem with (hitem | hitem) | hitem
      · exact (hq item hitem).imp_right fun hm => Or.inl (Or.inl hm)
      · exact Or.inr (Or.inl (Or.inr hitem))
      · exact Or.inr (Or.inr hitem)
    rcases hcases with rfl | hmem
    · refine ⟨hev.le, ?_⟩
      intro e he heq
      rcases List.mem_cons.mp he with rfl | he
      · exact fun _ _ hc => hc
      · have := h.issued_le e he
        omega
    · exact (h.transit item hmem).issue hev
  · intro b hb
    exact (h.openBatch b hb).issue hev

theorem mem_of_mem_eraseIdx_append {i : Nat} {item : SelectedRouteInvalidation}
    (hev : s.pending[i]? = some ev) (hitem : item ∈ s.pending.eraseIdx i ∨ item = ev) :
    item ∈ s.pending := by
  rcases hitem with hitem | rfl
  · exact List.mem_of_mem_eraseIdx hitem
  · exact List.mem_of_getElem? hev

theorem Observation.Inv.send (h : s.Inv) {i : Nat} (hs : s.step stream (.send i) = some s') :
    s'.Inv := by
  simp only [step] at hs
  split at hs
  · next ev hev hretry =>
    -- the event only moves within the transit
    have hmem : ∀ item, item ∈ s.pending.eraseIdx i ∨ item = ev →
        Stands s.issued s.current item := by
      intro item hitem
      refine h.transit item ?_
      simp [inTransit, mem_of_mem_eraseIdx_append hev hitem]
    have hchannel : ∀ item ∈ s.channel, Stands s.issued s.current item := by
      intro item hitem
      exact h.transit item (by simp [inTransit, hitem])
    split at hs
    · cases hs
      refine h.withTransit (s.pending.eraseIdx i) s.retrying (s.channel ++ [ev]) ?_
      intro item hitem
      simp only [hretry, Option.toList_none, List.append_nil, List.mem_append,
        List.mem_singleton] at hitem
      rcases hitem with hitem | hitem | hitem
      · exact hmem item (Or.inl hitem)
      · exact hchannel item hitem
      · exact hmem item (Or.inr hitem)
    · split at hs
      · cases hs
        refine h.withTransit (s.pending.eraseIdx i) (some ev) s.channel ?_
        intro item hitem
        simp only [Option.toList_some, List.mem_append, List.mem_singleton] at hitem
        rcases hitem with hitem | hitem
        · exact hmem item hitem
        · exact hchannel item hitem
      · cases hs
  · cases hs

theorem Observation.Inv.retry (h : s.Inv) (hs : s.step stream .retry = some s') : s'.Inv := by
  simp only [step] at hs
  split at hs
  · cases hs
  next ev hev =>
  have hrest : ∀ item ∈ s.pending ++ s.channel, Stands s.issued s.current item := by
    intro item hitem
    refine h.transit item ?_
    simp only [inTransit, List.mem_append] at hitem ⊢
    exact hitem.imp_left Or.inl
  split at hs
  · cases hs
    refine h.withTransit s.pending none
      (s.channel ++ [{ kind := .full, sequence := ev.sequence }]) ?_
    intro item hitem
    simp only [Option.toList_none, List.append_nil, ← List.append_assoc] at hitem
    rcases List.mem_append.mp hitem with hitem | hitem
    · exact hrest item hitem
    · have hold := h.transit ev (by simp [inTransit, hev])
      rw [List.mem_singleton.mp hitem]
      exact ⟨hold.1, fun e _ _ => coveredBy_full e rfl⟩
  · cases hs
    refine h.withTransit s.pending none s.channel ?_
    simpa using hrest

theorem Observation.Inv.receive (h : s.Inv) (hs : s.step stream .receive = some s') : s'.Inv := by
  have hitems : ∀ ev rest, s.channel = ev :: rest → Stands s.issued s.current ev ∧
      ({ s with channel := rest } : Observation).Inv := by
    intro ev rest hc
    refine ⟨h.transit ev (by simp [inTransit, hc]), h.withTransit s.pending s.retrying rest ?_⟩
    intro item hitem
    refine h.transit item ?_
    simp only [inTransit, hc, List.mem_append, List.mem_cons] at hitem ⊢
    exact hitem.imp_right Or.inr
  simp only [step] at hs
  split at hs
  · next ev rest hc _ =>
    cases hs
    obtain ⟨hev, hrest⟩ := hitems ev rest hc
    refine hrest.withPhase ?_ trivial
    rintro b ⟨⟩
    exact hev.batch
  · next ev rest b hc hp =>
    cases hs
    obtain ⟨hev, hrest⟩ := hitems ev rest hc
    refine hrest.withPhase ?_ trivial
    rintro b' ⟨⟩
    exact (h.openBatch b (by rw [hp]; rfl)).extend hev
  · cases hs

theorem Observation.Inv.finish (h : s.Inv) {ok : Bool} (hc : contiguous s (.finish ok) = true)
    (hs : s.step stream (.finish ok) = some s') : s'.Inv := by
  simp only [step] at hs
  split at hs
  · next b hp =>
    have hb : Accounts s.issued s.current b := h.openBatch b (by rw [hp]; rfl)
    cases ok with
    | false =>
      cases hs
      exact h.toIdle
    | true =>
      cases hs
      have hfirst : b.first ≤ s.processed + 1 := by simpa [contiguous, hp] using hc
      have hkind : b.scope.kind ≠ .full := by
        have hphase := h.coherent
        rwa [hp] at hphase
      refine h.completeBatch hb ?_
      intro n hn hle
      exact hb.interval hkind n (by omega) hle
  · cases hs

/-- Every move keeps the invariant, a batch that succeeds being contiguous. -/
theorem Observation.Inv.step (h : s.Inv) {move : ObserverMove} (hc : contiguous s move = true)
    (hs : s.step stream move = some s') : s'.Inv := by
  cases move with
  | issue kind pfx ifIndex =>
    simp only [Observation.step] at hs
    split_ifs at hs
    · cases hs
      exact h.issue rfl fun item hitem => Or.inr hitem
    cases hs
    refine h.issue rfl ?_
    intro item hitem
    exact (List.mem_append.mp hitem).symm.imp_left List.mem_singleton.mp
  | send i => exact h.send hs
  | retry => exact h.retry hs
  | subscribe | tick =>
    simp only [Observation.step] at hs
    split_ifs at hs
    cases hs
    exact h.withPhase nofun trivial
  | receive => exact h.receive hs
  | process =>
    simp only [Observation.step] at hs
    split at hs
    · next b hp =>
      cases hs
      exact h.processBatch hp
    · cases hs
  | finish ok => exact h.finish hc hs
  | snapshot =>
    simp only [Observation.step] at hs
    split at hs
    · next purpose hp =>
      cases hs
      have hopen : ∀ b, purpose = .batch b → Accounts s.issued s.current b := by
        rintro b rfl
        exact h.openBatch b (by rw [hp]; rfl)
      refine h.withPhase ?_ ⟨le_rfl, fun b hb => (hopen b hb).le⟩
      intro b hb
      refine h.openBatch b ?_
      rw [hp]
      cases purpose <;> exact hb
    · cases hs
  | auditMint role entry | mint i =>
    simp only [Observation.step] at hs
    split at hs
    · cases hs
      exact h.withTokens _ _ _
    · cases hs
  | finishAudit ok =>
    simp only [Observation.step] at hs
    split at hs
    · next hp =>
      cases hs
      exact h.completeAudit hp
    · cases hs
      exact h.abandonAudit _
    · cases hs
  | lose =>
    simp only [Observation.step] at hs
    split_ifs at hs
    cases hs
    exact h.detach.withTokens _ _ _
  | read role entry | registry r | flags role state keepTokens =>
    cases hs
    exact h.withTokens _ _ _

theorem ObservationRun.inv (h : ObservationRun stream contiguous s) : s.Inv := by
  induction h with
  | start => exact ⟨le_rfl, nofun, nofun, nofun, nofun, trivial⟩
  | move _ hc hs ih => exact ih.step hc hs

theorem allowed_of_fastPath {m : Memory} {role : String} {a : EnsureRequest} {allowed : Bool}
    {identity : SelectedRouteIdentity} (h : fastPath m role a allowed identity = true) :
    allowed = true := by
  simp only [fastPath, Bool.and_eq_true, Option.any_eq_true] at h
  obtain ⟨⟨token, -, h⟩, -⟩ := h
  exact h.1.1.1

/-- While every targeted batch that succeeds begins at most one past the processed
    sequence, no answer of the fast path stands over an unhandled event, on either
    platform and in every interleaving. -/
theorem ObservationRun.fastPath_sound {stream : ObserverStream}
    (h : ObservationRun stream contiguous s) : s.FastPathSound := by
  intro role a identity hfast ev hev hle _ _
  have hallowed : s.processed = s.current := by
    simpa using allowed_of_fastPath hfast
  exact h.inv.handled ev hev (hallowed ▸ hle)

theorem ObservationRun.play {C : Observation → ObserverMove → Bool} {moves : List ObserverMove}
    (h : ObservationRun stream C s) (hs : s.play stream C moves = some s') :
    ObservationRun stream C s' := by
  induction moves generalizing s with
  | nil =>
    cases hs
    exact h
  | cons move moves ih =>
    simp only [Observation.play] at hs
    split_ifs at hs with hc
    obtain ⟨s1, hstep, hrest⟩ := Option.bind_eq_some_iff.mp hs
    exact ih (h.move hc hstep) hrest

end

-- === Sample runs ===

def sampleObservation : Observation :=
  { memory := { registry := runOps (activeOps 7) .empty,
                roles := fun id => if id = "work" then some {} else none } }

theorem observationRun_sampleObservation (stream : ObserverStream)
    (C : Observation → ObserverMove → Bool) : ObservationRun stream C sampleObservation := by
  refine .start ?_
  intro role pfx
  by_cases h : role = "work" <;> simp [Memory.roleState, h]

def duplicateRequest : EnsureRequest := ⟨"corp", samplePrefix, .dns, 7, "tun0", 1, 1⟩

def provenMoves : List ObserverMove :=
  [.subscribe, .snapshot, .finishAudit true, .read "work" ((sampleReservation 7).next none)]

def deliver (pfx : Prefix) : List ObserverMove := [.issue .pfx pfx 0, .send 0]

/-- The token is minted after the batch of an event that came between the read and
    the mint has cleared the prefix. -/
def lateMintMoves : List ObserverMove :=
  provenMoves ++ deliver samplePrefix ++ [.receive, .process, .mint 0, .finish true]

def sampleEvent (sequence : Nat) : SelectedRouteInvalidation :=
  ⟨.pfx, samplePrefix, 0, sequence⟩

theorem ObservationRun.fastPath_sound_late_mint :
    ∃ s, ObservationRun .linux contiguous s ∧
      fastPath s.memory "work" duplicateRequest (s.processed = s.current) (sampleIdentity 7) =
        true ∧
      sampleEvent 1 ∈ s.issued ∧ s.readAt "work" samplePrefix < 1 ∧ s.Handled (sampleEvent 1) := by
  obtain ⟨s, hs, hfast, hev, hle, hread⟩ :
      ∃ s, sampleObservation.play .linux contiguous lateMintMoves = some s ∧
        fastPath s.memory "work" duplicateRequest (s.processed = s.current) (sampleIdentity 7) =
          true ∧ sampleEvent 1 ∈ s.issued ∧ 1 ≤ s.current ∧ s.readAt "work" samplePrefix < 1 := by
    decide +kernel
  have hrun := (observationRun_sampleObservation .linux contiguous).play hs
  exact ⟨s, hrun, hfast, hev, hread,
    ObservationRun.fastPath_sound hrun "work" duplicateRequest
      (sampleIdentity 7) hfast _ hev hle rfl
      hread⟩

def otherPrefix : Prefix := ⟨.v4 0x0a000002#32, 32⟩

/-- The stream is full of events for another prefix when the event of the record is
    sent, and one more comes once the batch of the others is processed. -/
def overflowMoves : List ObserverMove :=
  provenMoves ++ [.mint 0] ++ (List.replicate 64 (deliver otherPrefix)).flatten ++
    deliver samplePrefix ++ [.retry] ++ List.replicate 64 .receive ++ [.process, .finish true] ++
    deliver otherPrefix ++ [.receive, .process, .finish true]

/-- The fast path is open for the sample request over an event that neither a batch
    nor an audit has handled. -/
def answersOver (n : Nat) (s : Observation) : Bool :=
  fastPath s.memory "work" duplicateRequest (s.processed = s.current) (sampleIdentity 7) &&
    sampleEvent n ∈ s.issued && n ≤ s.current && s.readAt "work" samplePrefix < n &&
    s.succeeded.all (n ∉ ·.members) && s.audited < n

theorem not_fastPathSound_of_answersOver {n : Nat} {s : Observation} (h : answersOver n s = true) :
    ¬ s.FastPathSound := by
  simp only [answersOver, Bool.and_eq_true, decide_eq_true_eq, List.all_eq_true] at h
  obtain ⟨⟨⟨⟨⟨hfast, hev⟩, hle⟩, hread⟩, hown⟩, haudited⟩ := h
  intro hsound
  rcases hsound "work" duplicateRequest (sampleIdentity 7) hfast _ hev hle rfl hread with
    ⟨b, hb, hmem, -⟩ | hle'
  · exact hown b hb hmem
  · exact absurd hle' (not_le.mpr haudited)

/-- The event of the record was dropped. The batch of its successor does not see the
    gap, and the fast path answers over it. -/
theorem overflow_reopens_fast_path :
    ∃ s, ObservationRun .windows (fun _ _ => true) s ∧ ¬ s.FastPathSound := by
  have hany : (sampleObservation.play .windows (fun _ _ => true) overflowMoves).any
      (answersOver 65) = true := by
    decide +kernel
  obtain ⟨s, hs, hover⟩ := (Option.any_eq_true _ _).mp hany
  exact ⟨s, (observationRun_sampleObservation .windows _).play hs,
    not_fastPathSound_of_answersOver hover⟩

end Kikimora.Control
