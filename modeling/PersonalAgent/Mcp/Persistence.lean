/-
# Persistence of the MCP registry

`McpPersistence`, `with_manager` and `with_manager_critical` of
`apps/desktop/src-tauri/src/mcp_host.rs`, over any type of manager.  All four work under the
write gate, so each is one step.

`with_manager` changes the manager in memory and queues a snapshot of it; a debounced task
writes the snapshot later, unless its generation has passed.  `with_manager_critical` works
on a copy, writes it, and only then makes it the manager.  A write can fail before it touches
the file, and it can fail after it has replaced it, since the permissions are set last.

An operation can panic: `sanitize_adapter_message` cuts the text of an adapter at byte 1000,
which `String::truncate` refuses inside a character.  Both locks are then poisoned, and
`with_manager` has emptied the queue before (`panic_loses_registry`).

Every change of the manager counts up a version, which the source does not have: it tells an
older manager from a newer one.  `written` is the last write that succeeded, and `rejected`
says that the file holds what a failed critical operation left there.
-/

import PersonalAgent.Mcp.Runs

namespace PersonalAgent.Mcp

open Lib (run Along)
open PersonalAgent.Core (isWhitespace)

/-! ### Operations that panic -/

/-- An operation of the host on a manager: what it makes of it, and its result, or `none` if it
panics there. -/
abbrev Operation (M ε α : Type) : Type := M → M × Option (Except ε α)

/-- `String::truncate`: `none` where the cut is inside a character. -/
def truncate : ℕ → List Char → Option (List Char)
  | _ + 1, [] | 0, _ => some []
  | size + 1, c :: rest =>
    if c.utf8Size ≤ size + 1 then (truncate (size + 1 - c.utf8Size) rest).map (c :: ·) else none

/-- The loop of `sanitize_adapter_message` over one marker, from a place in the text on. -/
def redactValues (marker : List Char) : ℕ → List Char → List Char
  | fuel + 1, c :: rest =>
    if marker.isPrefixOf ((c :: rest).map Char.toLower) then
      (c :: rest).take marker.length ++ "[REDACTED]".toList ++ redactValues marker fuel
        (((c :: rest).drop marker.length).dropWhile (!isWhitespace ·))
    else c :: redactValues marker fuel rest
  | _, rest => rest

def sanitizeAdapterMessage (message : List Char) : Option (List Char) :=
  let output := message.map fun c => if c = '\r' || c = '\n' then ' ' else c
  truncate 1000 (["token=", "key=", "secret=", "password=", "authorization:"].foldl
    (fun output marker => redactValues marker.toList output.length output) output)

/-- The line `adapter_failure` logs, which is sanitized once more when it is pushed. -/
def adapterLog (e : AdapterError) : Option (List Char) :=
  (sanitizeAdapterMessage e.message.toList).bind fun message =>
    sanitizeAdapterMessage (e.code.toList ++ ": ".toList ++ message)

/-- `connect` as the host runs it: the failure of an adapter is logged before `enabled` is set
again. -/
def McpManager.connecting [CharCase] (id : Uuid) (outcome : Except AdapterError RuntimeHandshake) :
    Operation McpManager ManagerError Unit := fun m =>
  let (connected, result) := m.connect id outcome
  match outcome with
  | .error e =>
    if result = .error (.adapter e.code) ∧ adapterLog e = none then
      ((connected.onServer id fun s => (s.adapterFailure s.state, .ok ())).1, none)
    else (connected, some result)
  | .ok _ => (connected, some result)

theorem McpManager.connecting_panics [CharCase] {id : Uuid} {e : AdapterError} {m : McpManager}
    (hresult : (m.connect id (.error e)).2 = .error (.adapter e.code))
    (hlog : adapterLog e = none) : (McpManager.connecting id (.error e) m).2 = none := by
  simp [connecting, hresult, hlog]

/-! ### The host -/

/-- A manager with the number of changes it is the result of. -/
structure Stamped (M : Type) where
  version : ℕ
  value : M
  deriving DecidableEq, Repr

/-- What comes of `persist_manager`. -/
inductive WriteOutcome where
  | written
  | failed
  /-- The file was replaced and then an error was reported. -/
  | failedAfterReplacing
  deriving DecidableEq, Repr

/-- What a host operation reports. -/
inductive HostError (ε : Type) where
  | directory
  /-- A lock is poisoned. -/
  | poisoned
  /-- The call did not return. -/
  | panicked
  | operation (error : ε)
  | write
  deriving DecidableEq, Repr

/-- The manager in memory, the queue of snapshots and the file. -/
structure McpHostState (M : Type) where
  manager : Stamped M
  generation : ℕ := 0
  pending : Option (ℕ × Stamped M) := none
  file : Option (Stamped M)
  written : Option (Stamped M) := none
  rejected : Bool := false
  /-- The lock of the manager and the write gate, which every operation holds. -/
  poisoned : Bool := false

namespace McpHostState

variable {M ε α : Type}

/-- The host after a start: the file is read, or there is none, and the manager recovers. -/
def load (file : Option M) (fresh : M) (recover : M → M) : McpHostState M where
  manager := ⟨0, recover (file.getD fresh)⟩
  file := file.map (⟨0, ·⟩)

variable (h : McpHostState M)

/-- `generation.fetch_add(1)`, of a `u64`. -/
def nextGeneration : ℕ := (h.generation + 1) % 2 ^ 64

def invalidatePending : McpHostState M :=
  { h with generation := h.nextGeneration, pending := none }

def queue : McpHostState M :=
  { h with generation := h.nextGeneration, pending := some (h.nextGeneration, h.manager) }

/-- `persist_manager`. -/
def persist (snapshot : Stamped M) : WriteOutcome → McpHostState M
  | .written => { h with file := some snapshot, written := some snapshot, rejected := false }
  | .failed => h
  | .failedAfterReplacing => { h with file := some snapshot, rejected := false }

/-- A change of the manager in memory, with a snapshot of the result in the queue. -/
def withManager (directory : Bool) (operation : Operation M ε α) :
    McpHostState M × Except (HostError ε) α :=
  if !directory then (h, .error .directory)
  else if h.poisoned then (h, .error .poisoned)
  else
    let invalidated := h.invalidatePending
    match operation h.manager.value with
    | (value, none) =>
      ({ invalidated with manager := ⟨h.manager.version + 1, value⟩, poisoned := true },
        .error .panicked)
    | (value, some result) =>
      (({ invalidated with manager := ⟨h.manager.version + 1, value⟩ }).queue,
        result.mapError .operation)

/-- A change of a copy of the manager, which takes its place once it is written. -/
def withManagerCritical (directory : Bool) (operation : Operation M ε α) (write : WriteOutcome) :
    McpHostState M × Except (HostError ε) α :=
  if !directory then (h, .error .directory)
  else if h.poisoned then (h, .error .poisoned)
  else
    match operation h.manager.value with
    | (_, none) => ({ h with poisoned := true }, .error .panicked)
    | (_, some (.error e)) => (h, .error (.operation e))
    | (value, some (.ok a)) =>
      let candidate : Stamped M := ⟨h.manager.version + 1, value⟩
      let invalidated := h.invalidatePending
      match write with
      | .written => ({ invalidated.persist candidate .written with manager := candidate }, .ok a)
      | .failed => (invalidated.queue, .error .write)
      | .failedAfterReplacing =>
        ({ invalidated with file := some candidate, rejected := true }.queue, .error .write)

def flushGeneration (generation : ℕ) (write : WriteOutcome) :
    McpHostState M :=
  if h.poisoned then h
  else if h.generation = generation then
    match h.pending with
    | some (queued, snapshot) =>
      if queued = generation then
        match write with
        | .written => { h.persist snapshot .written with pending := none }
        | write => h.persist snapshot write
      else h
    | none => h
  else h

/-- The write of what is queued, now. -/
def flush (h : McpHostState M) (write : WriteOutcome) :
    McpHostState M × Except (HostError ε) Unit :=
  if h.poisoned then (h, .error .poisoned)
  else
    match h.pending with
    | none => ({ h with generation := h.nextGeneration }, .ok ())
    | some (queued, snapshot) =>
      let taken := { h with generation := h.nextGeneration, pending := none }
      match write with
      | .written => (taken.persist snapshot .written, .ok ())
      | write => ({ taken.persist snapshot write with pending := some (queued, snapshot) },
          .error .write)

end McpHostState

/-! ### Runs -/

/-- One of the steps that are taken under the write gate. -/
inductive PersistenceStep (M ε : Type) where
  | withManager (directory : Bool) (operation : Operation M ε Unit)
  | withManagerCritical (directory : Bool) (operation : Operation M ε Unit)
      (write : WriteOutcome)
  | flushGeneration (generation : ℕ) (write : WriteOutcome)
  | flush (write : WriteOutcome)

namespace McpHostState

variable {M ε α : Type}

def step (h : McpHostState M) : PersistenceStep M ε → McpHostState M
  | .withManager directory operation => (h.withManager directory operation).1
  | .withManagerCritical directory operation write =>
    (h.withManagerCritical directory operation write).1
  | .flushGeneration generation write => h.flushGeneration generation write
  | .flush write => (h.flush (ε := ε) write).1

/-- An operation that `with_manager` runs in this step returns. -/
def Returns (h : McpHostState M) : PersistenceStep M ε → Prop
  | .withManager directory operation => directory = true → h.poisoned = false →
    (operation h.manager.value).2.isSome = true
  | _ => True

/-- What holds between steps: a queued snapshot is the manager, without one the manager is the
one that was loaded or the one that was written last, and the file is not ahead of it. -/
structure Kept (loaded : Stamped M) (h : McpHostState M) : Prop where
  queued : ∀ generation snapshot, h.pending = some (generation, snapshot) → snapshot = h.manager
  saved : h.pending = none → h.manager = loaded ∨ h.written = some h.manager
  filed : h.rejected = false → ∀ snapshot, h.file = some snapshot →
    snapshot.version ≤ h.manager.version

/-- A step leaves the file alone or writes what is not older than the manager. -/
def WritesForward (h h' : McpHostState M) : Prop :=
  h'.file = h.file ∨ ∃ snapshot, h'.file = some snapshot ∧ h.manager.version ≤ snapshot.version

variable {loaded : Stamped M} {h : McpHostState M}

theorem kept_queue (hfiled : h.rejected = false → ∀ snapshot, h.file = some snapshot →
    snapshot.version ≤ h.manager.version) : Kept loaded h.queue where
  queued _ _ hpending := by
    cases hpending
    rfl
  saved hpending := by cases hpending
  filed := hfiled

/-- The manager was written and nothing is queued. -/
theorem kept_written (hpending : h.pending = none) (hwritten : h.written = some h.manager)
    (hfile : h.file = some h.manager) : Kept loaded h where
  queued _ _ hqueued := by
    rw [hpending] at hqueued
    cases hqueued
  saved _ := .inr hwritten
  filed _ snapshot hsnapshot := by
    rw [hfile] at hsnapshot
    cases hsnapshot
    exact le_rfl

theorem Kept.withManager (hkept : Kept loaded h) (directory : Bool) (operation : Operation M ε α)
    (hreturns : directory = true → h.poisoned = false →
      (operation h.manager.value).2.isSome = true) :
    Kept loaded (h.withManager directory operation).1 := by
  unfold McpHostState.withManager
  split_ifs with hdirectory hpoisoned
  · exact hkept
  · exact hkept
  · split
    · rename_i value hoperation
      have := hreturns (by simpa using hdirectory) (by simpa using hpoisoned)
      simp [hoperation] at this
    · exact kept_queue fun hrejected snapshot hfile =>
        (hkept.filed hrejected snapshot hfile).trans (Nat.le_succ _)

/-- A panic of an operation in memory: the queue is empty and both locks are poisoned. -/
theorem withManager_panics {operation : Operation M ε α} (hpoisoned : h.poisoned = false)
    (hpanics : (operation h.manager.value).2 = none) :
    (h.withManager true operation).1 = { h.invalidatePending with
      manager := ⟨h.manager.version + 1, (operation h.manager.value).1⟩, poisoned := true } := by
  rcases hresult : operation h.manager.value with ⟨value, result⟩
  rw [hresult] at hpanics
  cases hpanics
  simp [McpHostState.withManager, hpoisoned, hresult]

/-- With poisoned locks nothing is changed or written any more. -/
theorem step_poisoned (hpoisoned : h.poisoned = true) (s : PersistenceStep M ε) : h.step s = h := by
  cases s with
  | withManager directory operation =>
    cases directory <;> simp [step, McpHostState.withManager, hpoisoned]
  | withManagerCritical directory operation write =>
    cases directory <;> simp [step, McpHostState.withManagerCritical, hpoisoned]
  | flushGeneration generation write => simp [step, McpHostState.flushGeneration, hpoisoned]
  | flush write => simp [step, McpHostState.flush, hpoisoned]

/-- **What a panic leaves stays.**  The queue was emptied before the operation, and no later step
changes or writes anything. -/
theorem run_panics {operation : Operation M ε Unit} (hpoisoned : h.poisoned = false)
    (hpanics : (operation h.manager.value).2 = none) (steps : List (PersistenceStep M ε)) :
    run step h (.withManager true operation :: steps) = { h.invalidatePending with
      manager := ⟨h.manager.version + 1, (operation h.manager.value).1⟩, poisoned := true } := by
  rw [Lib.run_cons, step, withManager_panics hpoisoned hpanics]
  exact Lib.run_invariant (· = _) (fun _ s hs => by rw [hs]; exact step_poisoned rfl s) steps rfl

/-- Operations in memory do not touch the file. -/
theorem withManager_file (directory : Bool) (operation : Operation M ε α) :
    (h.withManager directory operation).1.file = h.file := by
  unfold McpHostState.withManager
  split_ifs
  · rfl
  · rfl
  · split <;> rfl

theorem Kept.withManagerCritical (hkept : Kept loaded h) (directory : Bool)
    (operation : Operation M ε α) (write : WriteOutcome) :
    Kept loaded (h.withManagerCritical directory operation write).1 ∧
      WritesForward h (h.withManagerCritical directory operation write).1 := by
  unfold McpHostState.withManagerCritical
  split_ifs
  · exact ⟨hkept, .inl rfl⟩
  · exact ⟨hkept, .inl rfl⟩
  · split
    · exact ⟨⟨hkept.queued, hkept.saved, hkept.filed⟩, .inl rfl⟩
    · exact ⟨hkept, .inl rfl⟩
    · cases write with
      | written => exact ⟨kept_written rfl rfl rfl, .inr ⟨_, rfl, Nat.le_succ _⟩⟩
      | failed => exact ⟨kept_queue hkept.filed, .inl rfl⟩
      | failedAfterReplacing => exact ⟨kept_queue nofun, .inr ⟨_, rfl, Nat.le_succ _⟩⟩

/-- A write of the snapshot that is queued, which is the manager. -/
theorem Kept.persist (hkept : Kept loaded h) (write : WriteOutcome) :
    Kept loaded (h.persist h.manager write) ∧
      WritesForward h (h.persist h.manager write) := by
  cases write with
  | written =>
    refine ⟨⟨hkept.queued, fun _ => .inr rfl, fun _ snapshot hfile => ?_⟩, .inr ⟨_, rfl, le_rfl⟩⟩
    cases hfile
    exact le_rfl
  | failed => exact ⟨hkept, .inl rfl⟩
  | failedAfterReplacing =>
    refine ⟨⟨hkept.queued, hkept.saved, fun _ snapshot hfile => ?_⟩, .inr ⟨_, rfl, le_rfl⟩⟩
    cases hfile
    exact le_rfl

theorem Kept.flushGeneration (hkept : Kept loaded h) (generation : ℕ) (write : WriteOutcome) :
    Kept loaded (h.flushGeneration generation write) ∧
      WritesForward h (h.flushGeneration generation write) := by
  unfold McpHostState.flushGeneration
  split_ifs
  · exact ⟨hkept, .inl rfl⟩
  · split
    · rename_i queued snapshot hpending
      obtain rfl := hkept.queued queued snapshot hpending
      split_ifs
      · cases write with
        | written => exact ⟨kept_written rfl rfl rfl, .inr ⟨_, rfl, le_rfl⟩⟩
        | failed => exact hkept.persist .failed
        | failedAfterReplacing => exact hkept.persist .failedAfterReplacing
      · exact ⟨hkept, .inl rfl⟩
    · exact ⟨hkept, .inl rfl⟩
  · exact ⟨hkept, .inl rfl⟩

theorem Kept.flush (hkept : Kept loaded h) (write : WriteOutcome) :
    Kept loaded (h.flush (ε := ε) write).1 ∧ WritesForward h (h.flush (ε := ε) write).1 := by
  unfold McpHostState.flush
  split_ifs
  · exact ⟨hkept, .inl rfl⟩
  split
  · exact ⟨⟨hkept.queued, hkept.saved, hkept.filed⟩, .inl rfl⟩
  · rename_i queued snapshot hpending
    obtain rfl := hkept.queued queued snapshot hpending
    -- A failed write puts the snapshot back into the queue.
    have hback {h' : McpHostState M} (hmanager : h'.manager = h.manager)
        (hfiled : h'.rejected = false → ∀ snapshot, h'.file = some snapshot →
          snapshot.version ≤ h'.manager.version) :
        Kept loaded { h' with pending := some (queued, h.manager) } := by
      refine ⟨fun _ _ hqueued => ?_, nofun, hfiled⟩
      cases hqueued
      exact hmanager.symm
    cases write with
    | written => exact ⟨kept_written rfl rfl rfl, .inr ⟨_, rfl, le_rfl⟩⟩
    | failed => exact ⟨hback rfl hkept.filed, .inl rfl⟩
    | failedAfterReplacing =>
      exact ⟨hback rfl (hkept.persist .failedAfterReplacing).1.filed, .inr ⟨_, rfl, le_rfl⟩⟩

theorem Kept.step (hkept : Kept loaded h) (s : PersistenceStep M ε) :
    (h.Returns s → Kept loaded (h.step s)) ∧ WritesForward h (h.step s) := by
  cases s with
  | withManager directory operation =>
    exact ⟨hkept.withManager directory operation, .inl (withManager_file directory operation)⟩
  | withManagerCritical directory operation write =>
    exact (hkept.withManagerCritical directory operation write).imp_left fun h _ => h
  | flushGeneration generation write =>
    exact (hkept.flushGeneration generation write).imp_left fun h _ => h
  | flush write => exact (hkept.flush write).imp_left fun h _ => h

theorem kept_load (file : Option M) (fresh : M) (recover : M → M) :
    Kept (load file fresh recover).manager (load file fresh recover) where
  queued := nofun
  saved _ := .inl rfl
  filed _ snapshot hfile := by
    obtain ⟨_, -, rfl⟩ := Option.map_eq_some_iff.mp hfile
    exact le_rfl

/-- A critical operation that reports a failure leaves the manager as it is. -/
theorem withManagerCritical_error {directory : Bool} {operation : Operation M ε α}
    {write : WriteOutcome} {e : HostError ε}
    (herror : (h.withManagerCritical directory operation write).2 = .error e) :
    (h.withManagerCritical directory operation write).1.manager = h.manager := by
  unfold withManagerCritical at herror ⊢
  split_ifs at herror ⊢
  · rfl
  · rfl
  · rcases hoperation : operation h.manager.value with ⟨value, _ | e' | a⟩
    · rfl
    · rfl
    · rw [hoperation] at herror
      cases write with
      | written => cases herror
      | failed | failedAfterReplacing => rfl

end McpHostState

open McpHostState

/-- **Nothing is lost and nothing goes back**, as long as the operations of `with_manager` return.
Between any steps after a start the manager is as it was loaded, the last successful write
contains it, or it is queued; a write does not replace a newer manager by an older one, unless
the newer one was left in the file by a critical operation that failed; and a critical operation
that reports a failure leaves the manager as it is. -/
theorem persistence_kept {M ε α : Type} (file : Option M) (fresh : M) (recover : M → M)
    (steps : List (PersistenceStep M ε))
    (hreturns : Along step Returns (load file fresh recover) steps) :
    let loaded := load file fresh recover
    let h := run step loaded steps
    (h.manager = loaded.manager ∨ h.written = some h.manager ∨
      ∃ generation, h.pending = some (generation, h.manager)) ∧
    (h.rejected = false → ∀ (s : PersistenceStep M ε) (old new : Stamped M), h.file = some old →
      (h.step s).file = some new → old.version ≤ new.version) ∧
    ∀ (directory : Bool) (operation : Operation M ε α) (write : WriteOutcome) (e : HostError ε),
      (h.withManagerCritical directory operation write).2 = .error e →
      (h.withManagerCritical directory operation write).1.manager = h.manager := by
  intro loaded h
  have hkept : h.Kept loaded.manager := hreturns.invariant (McpHostState.Kept loaded.manager)
    (fun _ s hs hkept => (hkept.step s).1 hs) (kept_load file fresh recover)
  refine ⟨?_, fun hrejected s old new hold hnew => ?_, fun _ _ _ _ => ?_⟩
  · cases hpending : h.pending with
    | none => exact (hkept.saved hpending).imp_right .inl
    | some queued =>
      obtain ⟨generation, snapshot⟩ := queued
      exact .inr (.inr ⟨generation, by rw [hkept.queued generation snapshot hpending]⟩)
  · rcases (hkept.step s).2 with hsame | ⟨snapshot, hsnapshot, hle⟩
    · rw [hsame, hold] at hnew
      cases hnew
      exact le_rfl
    · cases hsnapshot.symm.trans hnew
      exact (hkept.filed hrejected old hold).trans hle
  · exact withManagerCritical_error

section Examples

attribute [local instance] Sample.asciiCase Sample.remoteUrl Sample.plainDigest

/-- A registry with one server that is connected. -/
def connectedRegistry : McpManager :=
  run McpManager.apply {} [.addServer (Sample.server 1 "files" none),
    .on 1 (.connect (.ok (Sample.handshake ["read"])))]

/-- The addition of a server. -/
def addFiles : Operation McpManager ManagerError Unit := fun m =>
  ((m.addServer (Sample.server 1 "files" none)).1, some (.ok ()))

/-- The text with which a server refuses a connection. -/
def refusing (message : List Char) : Operation McpManager ManagerError Unit :=
  McpManager.connecting 1 (.error { code := "spawn_failed", message := String.ofList message })

/-- A server is added and refuses the first connection, a critical operation is written. -/
def refusedSteps : List (PersistenceStep McpManager ManagerError) :=
  [.withManager true addFiles, .withManager true (refusing "no such command".toList),
    .withManagerCritical true addFiles .written]

/-- The third version is in the file, and a flush does not go back behind it. -/
theorem persistence_kept_refused :
    let h := run step (.load none {} McpManager.recoverAfterRestart) refusedSteps
    h.rejected = false ∧ (h.file.map (·.version)) = some 3 ∧
      ∀ old new, h.file = some old →
        (h.step (ε := ManagerError) (.flush .written)).file = some new →
        old.version ≤ new.version := by
  have hkept := persistence_kept (α := Unit) none ({} : McpManager)
    McpManager.recoverAfterRestart refusedSteps ⟨fun _ _ => rfl, fun _ _ => by decide +kernel,
      trivial, trivial⟩
  exact ⟨by decide +kernel, by decide +kernel, hkept.2.1 (by decide +kernel) (.flush .written)⟩

def startedHost : McpHostState McpManager :=
  .load (some connectedRegistry) {} McpManager.recoverAfterRestart

/-- The host after a critical operation whose write failed late. -/
def rejectedHost : McpHostState McpManager :=
  run step (.load none {} McpManager.recoverAfterRestart)
    [.withManagerCritical true addFiles .failedAfterReplacing]

/-- 999 letters and a letter of two bytes. -/
def unfitText : List Char := List.replicate 999 'x' ++ ['é']

/-- The host after the addition of a server, before anything is written. -/
def addedHost : McpHostState McpManager :=
  (McpHostState.load none {} McpManager.recoverAfterRestart).step (.withManager true addFiles)

theorem refusing_unfitText : (refusing unfitText addedHost.manager.value).2 = none := by
  have hlog : adapterLog { code := "spawn_failed", message := String.ofList unfitText } = none := by
    rw [adapterLog, String.toList_ofList]
    decide +kernel
  exact McpManager.connecting_panics (by decide +kernel) hlog

/-- **A panic loses the registry.**  A server is added and refuses the connection with a text that
is cut inside its last letter.  The operation panics, and the added server is in memory but
neither in the file nor in the queue, and nothing is written any more.  Also without a panic, the
registry that a start recovers is neither in the file nor in the queue; and a critical operation
whose write fails after it replaced the file leaves a registry there that the next write of the
older one in memory replaces. -/
theorem panic_loses_registry :
    let h := run step addedHost [.withManager true (refusing unfitText), .flush .written]
    (addedHost.manager.value.servers[1]?.isSome = true ∧ h.pending = none ∧ h.file = none ∧
      h.poisoned = true) ∧
    (startedHost.pending.isNone = true ∧ startedHost.written.isNone = true ∧
      (startedHost.file.bind fun f => f.value.servers[1]?.map (·.state)) = some .connected ∧
      (startedHost.manager.value.servers[1]?.map (·.state)) = some .connecting) ∧
    (rejectedHost.file.map (·.version)) = some 1 ∧
      ((rejectedHost.flush (ε := ManagerError) .written).1.file.map (·.version)) = some 0 := by
  rw [run_panics (h := addedHost) rfl refusing_unfitText [.flush .written]]
  exact ⟨⟨by decide +kernel, rfl, rfl, rfl⟩, by decide +kernel⟩

end Examples

end PersonalAgent.Mcp
