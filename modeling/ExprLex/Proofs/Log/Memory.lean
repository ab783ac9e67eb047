import ExprLex.Log.Service
import ExprLex.Proofs.Text.Clip

/-!
What a memory holds under any use of the service above it: of the events that were severe enough and
came since it was last cleared, the most recent ones.
-/
namespace ExprLex.Log

variable {limits : Limits} {least : Level} {bytes : Nat} {memory : Memory}
  {service : Service} {event : Event} {kept accepted : List Event}

/-! ## Uses of a service -/

inductive Call where
  | log (event : Event)
  | logError (code : Code) (message : String)
  | logSuccess (code : Code) (message : String)
  | clear
deriving DecidableEq

def Call.event? : Call → Option Event
  | .log event => some event
  | .logError code message => some (.error code message)
  | .logSuccess code message => some (.success code message)
  | .clear => none

namespace Service

def perform (service : Service) : Call → Service
  | .log event => service.log event
  | .logError code message => service.logError code message
  | .logSuccess code message => service.logSuccess code message
  | .clear => service.clear

def after (service : Service) (calls : List Call) : Service := calls.foldl perform service

theorem perform_event {call : Call} (raised : call.event? = some event) (service : Service) :
    service.perform call = service.log event := by
  cases call <;> cases raised <;> rfl

theorem after_concat (service : Service) (calls : List Call) (call : Call) :
    service.after (calls ++ [call]) = (service.after calls).perform call :=
  List.foldl_concat ..

end Service

/-! ## Accepted events -/

def Level.admitted : Level → List Level
  | .error => [.error]
  | .warning => [.error, .warning]
  | .info => [.error, .warning, .info]
  | .debug => [.error, .warning, .info, .debug]

/-- The events since the memory was last cleared that are severe enough, with their messages cut. -/
def acceptedBy (least : Level) (bytes : Nat) (calls : List Call) : List Event :=
  let since := (calls.rtakeWhile (· ≠ .clear)).filterMap Call.event?
  (since.filter (·.level ∈ least.admitted)).map fun event =>
    { event with message := Text.clip event.message bytes }

theorem Gate.accepts_iff (gate : Gate) (level : Level) :
    gate.accepts level = true ↔ level ∈ gate.minLevel.admitted := by
  rw [accepts, decide_eq_true_eq]
  cases gate.minLevel <;> cases level <;> decide

theorem acceptedBy_clear (least : Level) (bytes : Nat) (calls : List Call) :
    acceptedBy least bytes (calls ++ [.clear]) = [] := by
  simp [acceptedBy]

theorem acceptedBy_event {call : Call} (raised : call.event? = some event) (least : Level)
    (bytes : Nat) (calls : List Call) : acceptedBy least bytes (calls ++ [call]) =
      acceptedBy least bytes calls ++ ((⟨least, bytes⟩ : Gate).pass event).toList := by
  have goesOn : call ≠ .clear := by
    rintro rfl
    cases raised
  have admits := Gate.accepts_iff ⟨least, bytes⟩ event.level
  rw [Gate.pass, acceptedBy, List.rtakeWhile_concat_pos _ _ _ (by simpa using goesOn)]
  by_cases severe : event.level ∈ least.admitted
  · rw [if_pos (admits.mpr severe)]
    simp [acceptedBy, raised, severe]
  · rw [if_neg (mt admits.mp severe)]
    simp [acceptedBy, raised, severe]

/-! ## Memories -/

structure Memory.Holds (memory : Memory) (kept : List Event) : Prop where
  events : memory.events = kept
  size : memory.size = kept.length

theorem Memory.Holds.dropOldest (holds : memory.Holds kept) :
    memory.dropOldest.Holds (kept.drop 1) := by
  obtain ⟨rfl, size⟩ := holds
  have one : memory.size - 1 = (memory.events.drop 1).length := by rw [List.length_drop, size]
  rw [Memory.dropOldest]
  split
  · rename_i oldest older found
    have rest : memory.events.drop 1 = older ++ memory.newer.reverse := by
      rw [Memory.events, found]
      rfl
    exact ⟨rest.symm, one⟩
  · rename_i found
    have rest : memory.events.drop 1 = memory.newer.reverse.drop 1 := by
      rw [Memory.events, found]
      rfl
    exact ⟨by rw [rest, Memory.events, List.reverse_nil, List.append_nil], one⟩

theorem Memory.Holds.add (holds : memory.Holds kept) (event : Event) :
    Memory.Holds { memory with newer := event :: memory.newer, size := memory.size + 1 }
      (kept ++ [event]) := by
  obtain ⟨rfl, size⟩ := holds
  constructor
  · simp [Memory.events]
  · simp [size]

theorem length_rtake (events : List Event) (n : Nat) :
    (events.rtake n).length = min events.length n := by
  rw [List.rtake, List.length_drop]
  omega

theorem Memory.Holds.push (room : 0 < memory.capacity)
    (holds : memory.Holds (accepted.rtake memory.capacity)) (event : Event) :
    (memory.push event).Holds ((accepted ++ [event]).rtake memory.capacity) := by
  obtain ⟨n, capacity⟩ := Nat.exists_eq_succ_of_ne_zero room.ne'
  rw [capacity] at holds
  rw [capacity, List.rtake_concat_succ, Memory.push]
  refine Memory.Holds.add ?_ event
  have length := holds.size.trans (length_rtake accepted (n + 1))
  split
  · -- The memory is full, and behind its oldest event there is the rest of what is kept.
    have rest : accepted.rtake n = (accepted.rtake (n + 1)).drop 1 := by
      rw [List.rtake, List.rtake, List.drop_drop]
      congr 1
      omega
    exact rest ▸ holds.dropOldest
  · have all : accepted.rtake n = accepted.rtake (n + 1) := by
      rw [List.rtake, List.rtake]
      congr 1
      omega
    exact all ▸ holds

theorem Memory.dropOldest_capacity (memory : Memory) :
    memory.dropOldest.capacity = memory.capacity := by
  rw [dropOldest]
  split <;> rfl

theorem Memory.push_capacity (memory : Memory) (event : Event) :
    (memory.push event).capacity = memory.capacity := by
  simp only [push]
  split
  · exact memory.dropOldest_capacity
  · rfl

/-! ## Services -/

/-- Whether a service with these limits has been used so: its memory holds the most recent of the
events that it accepted. -/
structure Service.Holds (limits : Limits) (least : Level) (calls : List Call) (service : Service) :
    Prop where
  gate : service.gate = ⟨least, limits.messageBytes⟩
  capacity : service.memory.capacity = limits.logEvents
  memory : service.memory.Holds
    ((acceptedBy least limits.messageBytes calls).rtake limits.logEvents)

namespace Service

theorem ofLimits_holds (limits : Limits) (least : Level) :
    (ofLimits limits least).Holds limits least [] := by
  refine ⟨rfl, rfl, ?_⟩
  change Memory.Holds _ (List.rtake [] _)
  rw [List.rtake_nil]
  exact ⟨rfl, rfl⟩

section
variable {calls : List Call} (room : 0 < limits.logEvents)
  (holds : service.Holds limits least calls)
include holds

theorem Holds.clear : service.clear.Holds limits least (calls ++ [.clear]) := by
  refine ⟨holds.gate, holds.capacity, ?_⟩
  rw [acceptedBy_clear, List.rtake_nil]
  exact ⟨rfl, rfl⟩

include room

theorem Holds.log {call : Call} (raised : call.event? = some event) :
    (service.log event).Holds limits least (calls ++ [call]) := by
  obtain ⟨gate, capacity, memory⟩ := holds
  have grown := acceptedBy_event raised least limits.messageBytes calls
  rw [Service.log, gate]
  cases passed : Gate.pass ⟨least, limits.messageBytes⟩ event with
  | none =>
      rw [passed, Option.toList_none, List.append_nil] at grown
      exact ⟨gate, capacity, grown ▸ memory⟩
  | some event =>
      rw [passed, Option.toList_some] at grown
      rw [← capacity] at room memory
      refine ⟨rfl, (service.memory.push_capacity event).trans capacity, ?_⟩
      rw [grown, ← capacity]
      exact memory.push room event

theorem Holds.perform (call : Call) :
    (service.perform call).Holds limits least (calls ++ [call]) := by
  cases raised : call.event? with
  | some event =>
      rw [perform_event raised]
      exact holds.log room raised
  | none =>
      cases call <;> cases raised
      exact holds.clear

end

theorem after_holds (room : 0 < limits.logEvents) (least : Level) (calls : List Call) :
    ((ofLimits limits least).after calls).Holds limits least calls := by
  induction calls using List.reverseRecOn with
  | nil => exact ofLimits_holds limits least
  | append_singleton calls call ih =>
      rw [after_concat]
      exact ih.perform room call

end Service

/-! ## What the memory answers -/

structure Memory.Answers (memory : Memory) (bytes : Nat) (kept : List Event) : Prop where
  events : memory.events = kept
  size : memory.size = kept.length
  errors : memory.errors = kept.filter (·.level = .error)
  hasError : ∀ code, memory.hasError code = true ↔
    ∃ event ∈ kept, event.level = .error ∧ event.code = code
  hasEvent : ∀ code, memory.hasEvent code = true ↔ ∃ event ∈ kept, event.code = code
  messages : ∀ event ∈ memory.events, event.message.utf8ByteSize ≤ bytes

theorem Memory.Holds.answers (holds : memory.Holds kept)
    (short : ∀ event ∈ kept, event.message.utf8ByteSize ≤ bytes) : memory.Answers bytes kept := by
  obtain ⟨rfl, size⟩ := holds
  constructor
  case events => rfl
  case size => exact size
  case errors => rfl
  case hasError =>
    intro code
    simp [Memory.hasError, Event.isError]
  case hasEvent =>
    intro code
    simp [Memory.hasEvent]
  case messages => exact short

theorem acceptedBy_bytes {calls : List Call} (member : event ∈ acceptedBy least bytes calls) :
    event.message.utf8ByteSize ≤ bytes := by
  obtain ⟨event, -, rfl⟩ := List.mem_map.mp member
  exact Text.clip_bytes event.message bytes

theorem memory_recent (room : 0 < limits.logEvents) (least : Level) (calls : List Call) :
    let memory := ((Service.ofLimits limits least).after calls).memory
    let accepted := acceptedBy least limits.messageBytes calls
    memory.Answers limits.messageBytes (accepted.rtake limits.logEvents) ∧
      memory.events.length = min accepted.length limits.logEvents := by
  intro memory accepted
  have holds := (Service.after_holds room least calls).memory
  constructor
  · refine holds.answers ?_
    intro event member
    exact acceptedBy_bytes ((List.drop_suffix ..).mem member)
  · rw [holds.events]
    exact length_rtake ..

theorem memory_recent_two :
    let limits : Limits := { Limits.development with logEvents := 2, messageBytes := 3 }
    0 < limits.logEvents ∧ ((Service.ofLimits limits .info).after
        [.logError "E021" "lost", .clear, .logSuccess "I020" "done", .log (.debug "hidden"),
          .log (.warning "näher"), .logError "E020" "bad"]).memory.events =
      [.warning "nä", .error "E020" "bad"] := by
  intro limits
  have room : 0 < limits.logEvents := by decide
  exact ⟨room, (memory_recent room .info _).1.events.trans (by decide)⟩

end ExprLex.Log
