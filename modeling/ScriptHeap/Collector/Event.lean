import ScriptHeap.Collector.Basic

/-!
What the collector reports while it works: a level, a message, and named fields.
-/

namespace ScriptHeap

inductive Level where
  | trace
  | debug
  | info
  | warn
deriving DecidableEq, Repr

def Level.name : Level → String
  | trace => "TRACE"
  | debug => "DEBUG"
  | info => "INFO"
  | warn => "WARN"

inductive Event where
  | passStarted (target : Gen) (repair : Bool)
  | collected (info : CollectInfo) (used : Nat)
  | promoted (id : RecordId) (origin : Gen)
  | tableFull (generation : Gen) (capacity : Nat)
  | tablesRebuilt (overflow : Bool) (sizes : List Nat)
  | poolsPruned (released used redline : Nat)
  | exhausted (used maxMemory : Nat)
  | relieved (used : Nat)
  | report (text : String)
deriving DecidableEq, Repr

namespace Event

def level : Event → Level
  | promoted .. => .trace
  | passStarted .. | collected .. | tableFull .. | tablesRebuilt .. => .debug
  | poolsPruned .. | relieved .. | report .. => .info
  | exhausted .. => .warn

def message : Event → String
  | passStarted .. => "collection start"
  | collected .. => "collection finished"
  | promoted .. => "promote"
  | tableFull .. => "cross-generation root table overflow"
  | tablesRebuilt .. => "root tables rebuilt"
  | poolsPruned .. => "memory redline reached, type pools pruned"
  | exhausted .. => "heap exhausted, degrading"
  | relieved .. => "memory pressure relieved, leaving degraded mode"
  | report text => "\n" ++ text

/-- A number in decimal. -/
def showNat (n : Nat) : String := n.repr

def showBool (b : Bool) : String := if b then "true" else "false"

def showTarget : Option Gen → String
  | some g => "Some(" ++ showNat g.val ++ ")"
  | none => "None"

def showId (id : RecordId) : String := "VarId(" ++ showNat id ++ ")"

def showSizes (sizes : List Nat) : String := "[" ++ ", ".intercalate (sizes.map showNat) ++ "]"

def fields : Event → List (String × String)
  | passStarted target repair => [("target", showNat target.val), ("repair", showBool repair)]
  | collected info used =>
    [("mode", info.mode.name), ("target", showTarget info.target), ("passes", showNat info.passes),
      ("marked", showNat info.marked), ("reclaimed", showNat info.reclaimed),
      ("promoted", showNat info.promoted), ("used_memory", showNat used)]
  | promoted id origin => [("id", showId id), ("from", showNat origin.val)]
  | tableFull generation capacity =>
    [("generation", showNat generation.val), ("capacity", showNat capacity)]
  | tablesRebuilt overflow sizes => [("overflow", showBool overflow), ("roots", showSizes sizes)]
  | poolsPruned released used redline =>
    [("released", showNat released), ("used_memory", showNat used), ("redline", showNat redline)]
  | exhausted used maxMemory => [("used", showNat used), ("max_memory", showNat maxMemory)]
  | relieved used => [("used", showNat used)]
  | report _ => []

end Event

end ScriptHeap
