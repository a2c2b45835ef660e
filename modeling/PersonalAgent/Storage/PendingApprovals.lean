/-
# The approvals a checkpoint waits for

A supervisor checkpoint keeps the approval requests that are not resolved at its
boundary.  `unresolved` says which those are without the checkpoint: the requests among a
goal's events that no later event answers, replaces or clears (`closes`).  Moving a row
over events keeps it at that (`foldl_pendingAfter`).

A row is `Tracked` by the log if what it waits for is what the goal's events up to its
boundary leave unresolved.  An update keeps that if it brings every event of the goal
between the boundary and its own last event (`HandedOver`), and so does a transition that
is stored together with its event if the boundary has no event of the goal above it.
-/

import PersonalAgent.Lib.SortedPages
import PersonalAgent.Storage.Batching

namespace PersonalAgent.Storage

open Lib List Option

open Agent

/-! ### What a list of events leaves unresolved -/

/-- `payload.approvals_resolved > 0`: all requests of the goal are resolved. -/
def resolvesAll (payload : Value) : Bool := (payload.u64At "approvals_resolved").getD 0 > 0

def resolvesTask (event : EventEnvelope) (payload : Value) : Bool :=
  event.type = "approval.resolved" || (payload.boolAt "approval_resolved").getD false

def namesTask (payload : Value) (request : EventEnvelope) : Bool :=
  (payload.strAt "task_id").any fun taskId => eventTaskId request = some taskId

/-- An event that ends the wait for an earlier request: it resolves all requests or that of
the task, or it is a new request for the task. -/
def closes (event request : EventEnvelope) : Bool :=
  event.payloadJson.any fun payload =>
    resolvesAll payload || ((event.type = "approval.requested" || resolvesTask event payload) &&
      namesTask payload request)

/-- A request for a task that does not come resolved. -/
def opens (event : EventEnvelope) : Bool :=
  event.payloadJson.any fun payload =>
    event.type = "approval.requested" && (payload.strAt "task_id").isSome &&
      !(resolvesAll payload || (resolvesTask event payload && namesTask payload event))

def unresolved : List EventEnvelope → List EventEnvelope
  | [] => []
  | event :: later =>
    if opens event && later.all (!closes · event) then event :: unresolved later
    else unresolved later

/-- One more event closes some of the requests and may be one. -/
theorem unresolved_concat (events : List EventEnvelope) (event : EventEnvelope) :
    unresolved (events ++ [event]) =
      (unresolved events).filter (!closes event ·) ++ if opens event then [event] else [] := by
  induction events with
  | nil => simp [unresolved]
  | cons request later ih =>
    rw [cons_append, unresolved, unresolved, ih, all_append]
    by_cases hopen : opens request && later.all (!closes · request)
    · by_cases hclosed : closes event request
      · simp [hopen, hclosed]
      · simp [hopen, hclosed]
    · rw [if_neg hopen, if_neg]
      simp only [Bool.and_eq_true, not_and] at hopen ⊢
      exact fun ho hl _ => absurd hl (hopen ho)

/-- What moving a row over an event does to the requests it waits for. -/
def pendingAfter (pending : List EventEnvelope) (event : EventEnvelope) : List EventEnvelope :=
  match event.payloadJson with
  | none => pending
  | some payload => evolvePending event payload pending

theorem pendingAfter_eq (pending : List EventEnvelope) (event : EventEnvelope) :
    pendingAfter pending event =
      pending.filter (!closes event ·) ++ if opens event then [event] else [] := by
  unfold pendingAfter closes opens
  cases event.payloadJson with
  | none => simp
  | some payload =>
    have hevolve : evolvePending event payload pending =
        let taskId := payload.strAt "task_id"
        let pending := if event.type = "approval.requested" then
          (taskId.map fun taskId => withoutTask taskId pending ++ [event]).getD pending else pending
        let pending := if resolvesTask event payload then
          (taskId.map (withoutTask · pending)).getD pending else pending
        if resolvesAll payload then [] else pending := by
      unfold evolvePending resolvesTask resolvesAll
      cases payload.strAt "task_id" <;> simp
    dsimp only
    rw [hevolve]
    by_cases hall : resolvesAll payload
    · simp [hall]
    · cases htask : payload.strAt "task_id" with
      | none => simp [hall, htask, namesTask]
      | some taskId =>
        by_cases hrequest : event.type = "approval.requested" <;>
          by_cases hresolves : resolvesTask event payload <;>
          by_cases hown : eventTaskId event = some taskId <;>
          simp [hall, htask, namesTask, hrequest, hresolves, hown, withoutTask, filter_append]

/-- **What a row waits for after following events is what they leave unresolved.** -/
theorem foldl_pendingAfter (events : List EventEnvelope) :
    events.foldl pendingAfter [] = unresolved events := by
  induction events using List.reverseRecOn with
  | nil => rfl
  | append_singleton events event ih =>
    rw [foldl_append, foldl_cons, foldl_nil, ih, pendingAfter_eq, unresolved_concat]

/-- The requests a row waits for; no row waits for none. -/
def pendingOf (row : Option SupervisorRecoveryCheckpoint) : List EventEnvelope :=
  (row.map (·.pendingApprovalEvents)).getD []

variable {snapshot : SupervisorSnapshot} {events : List EventEnvelope}

theorem evolve_pending {row : Option SupervisorRecoveryCheckpoint} {event : EventEnvelope}
    {c : SupervisorRecoveryCheckpoint} (h : evolveSupervisorCheckpoint row snapshot event = .ok c) :
    c.pendingApprovalEvents = pendingAfter (pendingOf row) event := by
  unfold evolveSupervisorCheckpoint at h
  dsimp only at h
  split at h
  · cases h
  · rename_i payload hpayload
    cases h
    rw [pendingAfter, hpayload]
    cases row with
    | none => rfl
    | some c => rfl

theorem follow_pending {row row' : Option SupervisorRecoveryCheckpoint}
    (h : follow snapshot row events = .ok row') :
    pendingOf row' = events.foldl pendingAfter (pendingOf row) := by
  induction events generalizing row with
  | nil => rw [pure_ok_iff.mp h, foldl_nil]
  | cons event events ih =>
    obtain ⟨c, hc, h⟩ := follow_cons_ok h
    rw [ih h, foldl_cons, ← evolve_pending hc]
    rfl

/-! ### Rows and the log -/

def accounted (goalId : Uuid) (events : List EventEnvelope)
    (row : Option SupervisorRecoveryCheckpoint) : List EventEnvelope :=
  events.filter fun event => event.goalId = some (.uuid goalId) &&
    row.any (event.monotonicSequence ≤ ·.lastSequence)

/-- What the row waits for is what the goal's events up to its boundary leave unresolved,
and the boundary is not above the log. -/
structure Tracked (goalId : Uuid) (log : EventTable) (row : Option SupervisorRecoveryCheckpoint) :
    Prop where
  pending : pendingOf row = unresolved (accounted goalId log.rows row)
  bound : ∀ c, row = some c → c.lastSequence ≤ log.lastSequence

/-- The events of an update are in the log, once each, and leave out no event of the goal
between the boundary of the row and their last. -/
structure HandedOver (goalId : Uuid) (log : EventTable)
    (row : Option SupervisorRecoveryCheckpoint) (events : List EventEnvelope) : Prop where
  nodup : events.Nodup
  stored : ∀ event ∈ events, event ∈ log.rows
  complete : ∀ event ∈ log.rows, event.goalId = some (.uuid goalId) →
    ∀ last ∈ events, event.monotonicSequence ≤ last.monotonicSequence →
      event ∈ events ∨ row.any (event.monotonicSequence ≤ ·.lastSequence)

/-- The boundary of the row has no event of the goal above it. -/
def CaughtUp (goalId : Uuid) (log : EventTable)
    (row : Option SupervisorRecoveryCheckpoint) : Prop :=
  ∀ event ∈ log.rows, event.goalId = some (.uuid goalId) →
    row.any (event.monotonicSequence ≤ ·.lastSequence)

variable {goalId : Uuid} {log log' : EventTable} {row : Option SupervisorRecoveryCheckpoint}
  {c : SupervisorRecoveryCheckpoint}

theorem Tracked.empty : Tracked goalId .empty none := ⟨rfl, fun _ h => (nomatch h)⟩

theorem mem_accounted {event : EventEnvelope} :
    event ∈ accounted goalId events row ↔ event ∈ events ∧ event.goalId = some (.uuid goalId) ∧
      row.any (event.monotonicSequence ≤ ·.lastSequence) := by
  rw [accounted, mem_filter, Bool.and_eq_true_iff, decide_eq_true_iff]

/-- Nothing is left out above a later boundary either. -/
theorem HandedOver.mono (h : HandedOver goalId log row events)
    (hle : ∀ c₀, row = some c₀ → c₀.lastSequence ≤ c.lastSequence) :
    HandedOver goalId log (some c) events := by
  refine ⟨h.nodup, h.stored, fun e he hgoal last hlast hseq => ?_⟩
  refine (h.complete e he hgoal last hlast hseq).imp_right fun hany => ?_
  obtain ⟨c₀, hc₀, hcovered⟩ := (any_eq_true _ _).mp hany
  exact decide_eq_true ((of_decide_eq_true hcovered).trans (hle c₀ hc₀))

namespace Tracked

theorem extend {added : List EventEnvelope} (h : Tracked goalId log row)
    (hrows : log'.rows = log.rows ++ added)
    (hadded : ∀ e ∈ added, log.lastSequence < e.monotonicSequence) : Tracked goalId log' row := by
  have hnone : accounted goalId added row = [] := by
    refine filter_eq_nil_iff.mpr fun e he hmem => ?_
    obtain ⟨c, hc, hle⟩ := (any_eq_true _ _).mp (Bool.and_eq_true_iff.mp hmem).2
    have hbound := h.bound c hc
    have hlt := hadded e he
    have hle := of_decide_eq_true hle
    omega
  refine ⟨?_, fun c hc => (h.bound c hc).trans (EventTable.lastSequence_le_of_rows hrows)⟩
  rw [h.pending, hrows, accounted, accounted, filter_append]
  exact congrArg unresolved ((congrArg _ hnone).trans (append_nil _)).symm

/-- **A row that moves on by the goal's next events stays tracked.**  The events it
accounts for afterwards are those it did before and the new ones. -/
theorem moved (h : Tracked goalId log row) (new : List EventEnvelope)
    (hpending : c.pendingApprovalEvents = new.foldl pendingAfter (pendingOf row))
    (hsorted : new.Pairwise (·.monotonicSequence < ·.monotonicSequence))
    (hnew : ∀ e ∈ new, e ∈ log.rows ∧ e.goalId = some (.uuid goalId) ∧
      ¬row.any (e.monotonicSequence ≤ ·.lastSequence) ∧ e.monotonicSequence ≤ c.lastSequence)
    (hcovers : ∀ c₀, row = some c₀ → c₀.lastSequence ≤ c.lastSequence)
    (hcomplete : ∀ e ∈ log.rows, e.goalId = some (.uuid goalId) →
      e.monotonicSequence ≤ c.lastSequence →
        e ∈ new ∨ row.any (e.monotonicSequence ≤ ·.lastSequence))
    (hbound : c.lastSequence ≤ log.lastSequence) : Tracked goalId log (some c) := by
  have haccounted : accounted goalId log.rows (some c) = accounted goalId log.rows row ++ new := by
    have hleft := log.sorted.filter fun e =>
      e.goalId = some (.uuid goalId) && (some c).any (e.monotonicSequence ≤ ·.lastSequence)
    have hright : (accounted goalId log.rows row ++ new).Pairwise
        (·.monotonicSequence < ·.monotonicSequence) := by
      refine pairwise_append.mpr ⟨log.sorted.filter _, hsorted, fun e he e' he' => ?_⟩
      obtain ⟨c₀, rfl, hle⟩ := (any_eq_true _ _).mp (mem_accounted.mp he).2.2
      have hlt : c₀.lastSequence < e'.monotonicSequence := by simpa using (hnew e' he').2.2.1
      have hle := of_decide_eq_true hle
      omega
    refine eq_of_strictSorted (·.monotonicSequence) hleft hright fun e => ?_
    rw [mem_append, mem_accounted, mem_accounted, any_some, decide_eq_true_iff]
    constructor
    · rintro ⟨he, hgoal, hle⟩
      rcases hcomplete e he hgoal hle with hmem | hold
      · exact .inr hmem
      · exact .inl ⟨he, hgoal, hold⟩
    · rintro (⟨he, hgoal, hold⟩ | hmem)
      · obtain ⟨c₀, hc₀, hle⟩ := (any_eq_true _ _).mp hold
        exact ⟨he, hgoal, (of_decide_eq_true hle).trans (hcovers c₀ hc₀)⟩
      · obtain ⟨he, hgoal, -, hle⟩ := hnew e hmem
        exact ⟨he, hgoal, hle⟩
  refine ⟨?_, fun c' hc' => Option.some.inj hc' ▸ hbound⟩
  rw [haccounted, ← foldl_pendingAfter, foldl_append, foldl_pendingAfter, ← h.pending]
  exact hpending

/-- A row whose boundary is that of another and that waits for the same is tracked with it. -/
theorem of_same (h : Tracked goalId log row) (hpos : ∀ e ∈ log.rows, 0 < e.monotonicSequence)
    (hpending : c.pendingApprovalEvents = pendingOf row)
    (hlast : c.lastSequence = (row.map (·.lastSequence)).getD 0) : Tracked goalId log (some c) := by
  have hany {e : EventEnvelope} (he : e ∈ log.rows) (hle : e.monotonicSequence ≤ c.lastSequence) :
      row.any (e.monotonicSequence ≤ ·.lastSequence) := by
    rw [hlast] at hle
    cases row with
    | none => exact absurd hle (Nat.not_le.mpr (hpos e he))
    | some c₀ => simpa using hle
  refine h.moved [] hpending .nil (fun _ h => (nomatch h)) (fun c₀ hc₀ => ?_)
    (fun e he _ hle => .inr (hany he hle)) ?_
  · rw [hlast, hc₀, map_some, getD_some]
  · cases row with
    | none => exact hlast ▸ Nat.zero_le _
    | some c₀ => exact hlast ▸ h.bound c₀ rfl

/-- **An update that leaves nothing out keeps the row tracked.** -/
theorem updated {update : SupervisorCheckpointUpdate} (h : Tracked goalId log row)
    (hpos : ∀ e ∈ log.rows, 0 < e.monotonicSequence) (hgoal : update.goalId = goalId)
    (hover : HandedOver goalId log row update.events) (hrow : updatedRow row update = .ok c) :
    Tracked goalId log (some c) := by
  obtain ⟨snapshot, events⟩ := update
  dsimp only at hover hgoal
  rcases eq_or_ne events [] with rfl | hne
  · obtain rfl := pure_ok_iff.mp hrow
    refine h.of_same hpos ?_ ?_
    · cases row <;> rfl
    · cases row <;> rfl
  have hnodup : (events.map (·.monotonicSequence)).Nodup :=
    hover.nodup.map_on fun e he e' he' hseq =>
      EventTable.eq_of_sequence (hover.stored e he) (hover.stored e' he') hseq
  have hsorted := sorted_sortedBySequence hnodup
  obtain ⟨haccepted, hfollow⟩ := (updatedRow_ok_iff hne hnodup).mp hrow
  obtain ⟨c', hc', hle, hmoved⟩ :=
    follow_fresh_ok (sortedBySequence_ne_nil hne) hsorted hfollow
  obtain rfl := Option.some.inj hc'
  rcases hmoved with rfl | ⟨-, last, hlast, hseq, hbehind⟩
  · exact h
  have hlast := mem_sortedBySequence.mp hlast
  refine h.moved _ (follow_pending hfollow) (hsorted.filter _) (fun e he => ?_)
    (fun c₀ hc₀ => (hbehind c₀ hc₀).le) (fun e he hegoal hele => ?_) ?_
  · obtain ⟨he, hfresh⟩ := mem_filter.mp he
    have hmem := mem_sortedBySequence.mp he
    refine ⟨hover.stored e hmem, hgoal ▸ (haccepted e hmem).2, by simpa using hfresh, hle e he⟩
  · rcases hover.complete e he hegoal last hlast (hseq ▸ hele) with hmem | hold
    · by_cases hold : row.any (e.monotonicSequence ≤ ·.lastSequence)
      · exact .inr hold
      · exact .inl (mem_filter.mpr ⟨mem_sortedBySequence.mpr hmem, by simp [hold]⟩)
    · exact .inr hold
  · rw [hseq]
    exact EventTable.le_lastSequence (hover.stored last hlast)

/-- **A transition stored with its event keeps the row tracked** if the row accounts for
all earlier events of the goal. -/
theorem evolved {snapshot : SupervisorSnapshot} {event : EventEnvelope}
    (h : Tracked goalId log row) (hcaught : CaughtUp goalId log row)
    (hrows : log'.rows = log.rows ++ [event]) (hlast : log.lastSequence < event.monotonicSequence)
    (hgoal : event.goalId = some (.uuid goalId))
    (hrow : evolveSupervisorCheckpoint row snapshot event = .ok c) :
    Tracked goalId log' (some c) := by
  have hseq := (evolve_ok hrow).2.1
  have hevent : event ∈ log'.rows := hrows ▸ mem_append_right _ (mem_singleton_self _)
  have hbehind (c₀ : SupervisorRecoveryCheckpoint) (hc₀ : row = some c₀) :
      c₀.lastSequence < event.monotonicSequence := (h.bound c₀ hc₀).trans_lt hlast
  have hadded : ∀ e ∈ [event], log.lastSequence < e.monotonicSequence :=
    fun e he => mem_singleton.mp he ▸ hlast
  refine (h.extend hrows hadded).moved [event] (evolve_pending hrow)
    (pairwise_singleton _ _) (fun e he => ?_)
    (fun c₀ hc₀ => hseq ▸ (hbehind c₀ hc₀).le) (fun e he hegoal _ => ?_) ?_
  · obtain rfl := mem_singleton.mp he
    refine ⟨hevent, hgoal, fun hany => ?_, hseq.ge⟩
    obtain ⟨c₀, hc₀, hle⟩ := (any_eq_true _ _).mp hany
    have hlt := hbehind c₀ hc₀
    have hle := of_decide_eq_true hle
    omega
  · rw [hrows] at he
    exact (mem_append.mp he).symm.imp_right fun he => hcaught e he hegoal
  · exact hseq ▸ EventTable.le_lastSequence hevent

/-- A batch of updates, of which those of the goal leave nothing out. -/
theorem saved {updates : List SupervisorCheckpointUpdate} {rows rows' : Checkpoints}
    (h : Tracked goalId log rows[goalId]?) (hpos : ∀ e ∈ log.rows, 0 < e.monotonicSequence)
    (hover : ∀ update ∈ updates, update.goalId = goalId →
      HandedOver goalId log rows[goalId]? update.events)
    (hsave : saveSupervisorCheckpointUpdates rows updates = .ok rows') :
    Tracked goalId log rows'[goalId]? := by
  induction updates generalizing rows with
  | nil =>
    obtain rfl := pure_ok_iff.mp hsave
    exact h
  | cons update updates ih =>
    obtain ⟨rows₁, hrows₁, hsave⟩ := bind_ok_iff.mp hsave
    obtain ⟨c, hc, hrows₁⟩ := bind_ok_iff.mp hrows₁
    obtain rfl := pure_ok_iff.mp hrows₁
    obtain ⟨hhead, htail⟩ := forall_mem_cons.mp hover
    by_cases hgoal : goalId = update.snapshot.graph.goalId
    · have hget : (rows.insert update.snapshot.graph.goalId c)[goalId]? = some c := by
        rw [getElem?_insert_eq, if_pos hgoal]
      rw [← hgoal] at hc
      refine ih (hget ▸ h.updated hpos hgoal.symm (hhead hgoal.symm) hc) ?_ hsave
      intro later hlater hlater'
      rw [hget]
      exact (htail later hlater hlater').mono fun c₀ hc₀ => updatedRow_le (hc₀ ▸ hc)
    · have hget : (rows.insert update.snapshot.graph.goalId c)[goalId]? = rows[goalId]? := by
        rw [getElem?_insert_eq, if_neg hgoal]
      exact ih (hget ▸ h) (hget ▸ htail) hsave

end Tracked

end PersonalAgent.Storage
