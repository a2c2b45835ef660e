/-
# The active view and its accessibility graph

`crates/context/src/model.rs`: what the desktop showed at one moment.  A snapshot is a
flat list of nodes; handles name a node, the window it is in and the generation of the
snapshot, and are refused by every other snapshot.  `validate` stands at the boundary to
the native bridge, and `resolve` in front of everything that uses a handle.

Coordinates are doubles that come from outside, so they may be infinite or no number.
-/

import PersonalAgent.Core.Usage
import PersonalAgent.Lib.Checks

namespace PersonalAgent.Context

open PersonalAgent.Core (trim)
open Lib (refuse)

/-- `value.trim().is_empty()`. -/
def isBlank (value : String) : Bool := (trim value).isEmpty

/-- Identity of one desktop observation. -/
structure SnapshotGeneration where
  epoch : ℕ := 0
  sequence : ℕ := 0
  deriving DecidableEq, Repr

namespace SnapshotGeneration

/-- The derived order: by epoch, then by sequence. -/
def before (a b : SnapshotGeneration) : Bool :=
  a.epoch < b.epoch || (a.epoch = b.epoch && a.sequence < b.sequence)

end SnapshotGeneration

/-- A double. -/
inductive Coordinate where
  | finite (value : F64)
  | infinite (negative : Bool)
  | nan
  deriving DecidableEq, Repr

namespace Coordinate

def isFinite : Coordinate → Bool
  | finite _ => true
  | _ => false

/-- `self >= 0.0`. -/
def nonneg : Coordinate → Bool
  | finite value => 0 ≤ value
  | infinite negative => !negative
  | nan => false

end Coordinate

/-- Logical rectangle in desktop coordinates. -/
structure Rect where
  x : Coordinate
  y : Coordinate
  width : Coordinate
  height : Coordinate
  deriving DecidableEq, Repr

def Rect.isValid (r : Rect) : Bool :=
  [r.x, r.y, r.width, r.height].all Coordinate.isFinite && r.width.nonneg && r.height.nonneg

/-- Stable window identity within a backend epoch. -/
structure WindowId where
  text : String
  deriving DecidableEq, Repr

/-- Node identity valid only for one exact snapshot. -/
structure NodeHandle where
  windowId : WindowId
  generation : SnapshotGeneration
  opaqueId : String
  deriving DecidableEq, Repr

inductive SemanticRole where
  | application | window | dialog | group | toolbar | menu | menuItem | button | link | checkBox
  | radioButton | comboBox | textField | searchField | staticText | heading | list | listItem
  | table | row | cell | tab | image | slider | scrollArea | terminal | document | unknown
  deriving DecidableEq, Repr

inductive NodeAction where
  | focus | press | setValue | replaceSelection | scroll | drag | expand | collapse | select
  deriving DecidableEq, Repr

inductive NodeState where
  | enabled | focused | selected | checked | expanded | editable | password | offscreen | busy
  deriving DecidableEq, Repr

/-- One node of the graph. -/
structure AccessibilityNode where
  handle : NodeHandle
  role : SemanticRole
  name : String
  description : Option String := none
  value : Option String := none
  bounds : Option Rect := none
  states : Finset NodeState := ∅
  actions : Finset NodeAction := ∅
  parent : Option NodeHandle := none
  children : List NodeHandle := []
  properties : List (String × String) := []

/-- A password field. -/
def AccessibilityNode.isSensitive (node : AccessibilityNode) : Bool := .password ∈ node.states

/-- Active window metadata. -/
structure ActiveView where
  applicationId : String
  applicationName : String
  processId : Option ℕ := none
  windowId : WindowId
  title : String
  bounds : Option Rect := none
  focusedNode : Option NodeHandle := none
  secureSurface : Bool := false

inductive PixelFormat where
  | bgra8
  | rgba8
  deriving DecidableEq, Repr

/-- Pixel metadata kept in a snapshot. -/
structure ScreenFrameDescriptor where
  frameId : String
  width : ℕ
  height : ℕ
  scaleMilli : ℕ
  pixelFormat : PixelFormat
  redactedRegions : ℕ
  deriving DecidableEq, Repr

structure CapturedFrame where
  generation : SnapshotGeneration
  descriptor : ScreenFrameDescriptor
  bytes : List UInt8
  deriving DecidableEq, Repr

/-- Invalid native context returned across the adapter boundary. -/
inductive ContextModelError where
  | staleGeneration (expected actual : SnapshotGeneration)
  | crossWindowHandle
  | invalidHandle
  | unknownHandle
  | danglingHandle
  | sensitiveValueExposed
  | invalidSnapshot (reason : String)
  | invalidFrame (reason : String)
  deriving DecidableEq, Repr

/-- Validate dimensions and exact byte count.  `usize` has 64 bits. -/
def CapturedFrame.validate (frame : CapturedFrame) (expected : SnapshotGeneration) :
    Except ContextModelError Unit :=
  if frame.generation ≠ expected then .error (.staleGeneration expected frame.generation)
  else if frame.descriptor.width = 0 ∨ frame.descriptor.height = 0 then
    .error (.invalidFrame "empty dimensions")
  else
    let expectedBytes := frame.descriptor.width * frame.descriptor.height * 4
    if 2 ^ 64 ≤ expectedBytes then .error (.invalidFrame "frame dimensions overflow")
    else if frame.bytes.length ≠ expectedBytes then
      .error (.invalidFrame s!"expected {expectedBytes} bytes, received {frame.bytes.length}")
    else .ok ()

/-- Accessibility-first active-view snapshot. -/
structure ActiveViewSnapshot where
  generation : SnapshotGeneration
  observedAtUnixMs : ℕ := 0
  view : ActiveView
  nodes : List AccessibilityNode := []
  frame : Option ScreenFrameDescriptor := none
  backend : String := ""
  degradedReasons : List String := []

namespace ActiveViewSnapshot

variable (s : ActiveViewSnapshot)

/-- Validate a handle before it reaches a native adapter. -/
def validateHandle (handle : NodeHandle) :
    Except ContextModelError Unit :=
  if handle.generation ≠ s.generation then
    .error (.staleGeneration s.generation handle.generation)
  else if handle.windowId ≠ s.view.windowId then .error .crossWindowHandle
  else if isBlank handle.opaqueId then .error .invalidHandle
  else .ok ()

/-- Find a node only when its handle belongs to this exact view generation. -/
def resolve (handle : NodeHandle) :
    Except ContextModelError AccessibilityNode := do
  s.validateHandle handle
  match s.nodes.find? (·.handle = handle) with
  | some node => .ok node
  | none => .error .unknownHandle

def handles : List NodeHandle := s.nodes.map (·.handle)

/-- A reference of the graph is a handle of this snapshot, and one of its nodes has it. -/
def validateEdge (edge : NodeHandle) : Except ContextModelError Unit := do
  s.validateHandle edge
  refuse (edge ∉ s.handles) .danglingHandle

def validateNode (node : AccessibilityNode) :
    Except ContextModelError Unit := do
  s.validateHandle node.handle
  refuse (node.bounds.any (!·.isValid)) (.invalidSnapshot "accessibility node has invalid bounds")
  refuse (node.isSensitive && node.value.isSome) .sensitiveValueExposed
  (node.parent.toList ++ node.children).forM s.validateEdge

/-- Validate graph invariants at a trust boundary. -/
def validate : Except ContextModelError Unit := do
  refuse (isBlank s.view.applicationId || isBlank s.view.windowId.text)
    (.invalidSnapshot "active application and window identity are required")
  refuse (s.view.bounds.any (!·.isValid)) (.invalidSnapshot "active window has invalid bounds")
  refuse (s.handles.dedup.length ≠ s.nodes.length)
    (.invalidSnapshot "duplicate accessibility handles")
  s.nodes.forM s.validateNode
  s.view.focusedNode.forM s.validateEdge

end ActiveViewSnapshot
end PersonalAgent.Context
