import ExprLex.Limits
import ExprLex.Log.Event
import ExprLex.Text.Bytes

namespace ExprLex.Log

structure Gate where
  minLevel : Level
  messageBytes : Nat

/-- The most recent events, at most `capacity` of them, as a queue: the oldest are at the head of
`older`, the newest at the head of `newer`. -/
structure Memory where
  capacity : Nat
  older : List Event := []
  newer : List Event := []
  size : Nat := 0

structure Service where
  gate : Gate
  memory : Memory

namespace Gate

def accepts (gate : Gate) (level : Level) : Bool := level.rank ≤ gate.minLevel.rank

def pass (gate : Gate) (event : Event) : Option Event :=
  if gate.accepts event.level then
    some { event with message := Text.clip event.message gate.messageBytes }
  else none

end Gate

namespace Memory

def empty (capacity : Nat) : Memory := { capacity }

def events (memory : Memory) : List Event := memory.older ++ memory.newer.reverse

def clear (memory : Memory) : Memory := empty memory.capacity

def dropOldest (memory : Memory) : Memory :=
  match memory.older with
  | _ :: older => { memory with older, size := memory.size - 1 }
  | [] => { memory with older := memory.newer.reverse.drop 1, newer := [], size := memory.size - 1 }

def push (memory : Memory) (event : Event) : Memory :=
  let room := if memory.capacity ≤ memory.size then memory.dropOldest else memory
  { room with newer := event :: room.newer, size := room.size + 1 }

def errors (memory : Memory) : List Event := memory.events.filter (·.isError)

def hasError (memory : Memory) (code : Code) : Bool :=
  memory.events.any fun event => event.isError && event.code == code

def hasEvent (memory : Memory) (code : Code) : Bool :=
  memory.events.any fun event => event.code == code

end Memory

namespace Service

def ofLimits (limits : Limits) (minLevel : Level) : Service :=
  ⟨⟨minLevel, limits.messageBytes⟩, .empty limits.logEvents⟩

def log (service : Service) (event : Event) : Service :=
  match service.gate.pass event with
  | some accepted => { service with memory := service.memory.push accepted }
  | none => service

def logAll (service : Service) (events : List Event) : Service := events.foldl log service

def logError (service : Service) (code : Code) (message : String) : Service :=
  service.log (.error code message)

def logSuccess (service : Service) (code : Code) (message : String) : Service :=
  service.log (.success code message)

def clear (service : Service) : Service := { service with memory := service.memory.clear }

end Service
end ExprLex.Log
