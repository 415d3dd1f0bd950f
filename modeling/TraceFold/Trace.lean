import TraceFold.Codec.Transaction
import TraceFold.Forest

/-!
# Traces

A trace as it is stored: transactions, each with the transactions that its messages caused.  A
document holds one of them or an array of several; the first character tells which.  Loading a
trace turns every node into a bubble, numbered parents first and in the order of the document,
and fills in the opcodes that were left out.
-/

namespace TraceFold

/-- A transaction and those it caused. -/
structure TraceNode where
  transaction : Transaction
  children : List TraceNode

instance : Inhabited TraceNode := ⟨default, []⟩

/-! ## Reading failures -/

/-- Why the bytes of a trace could not be had as a text. -/
inductive ReadFault where
  | notUtf8
  /-- The operating system refused, in its own words and with its own number. -/
  | system (description : String) (code : Nat)
deriving DecidableEq

namespace ReadFault

def message : ReadFault → String
  | notUtf8 => "stream did not contain valid UTF-8"
  | system description code => description ++ " (os error " ++ toString code ++ ")"

def noSuchFile : ReadFault := .system "No such file or directory" 2

def notADirectory : ReadFault := .system "Not a directory" 20

def isDirectory : ReadFault := .system "Is a directory" 21

end ReadFault

/-- Why there is no trace. -/
inductive TraceError where
  | unreadable (f : ReadFault)
  | undecodable (e : DecodeError)
  | empty
deriving DecidableEq

namespace TraceError

/-- What goes before the wording of a decoding problem. -/
def decodeLead : String := "failed to decode trace: "

def message : TraceError → String
  | unreadable f => "failed to read trace: " ++ f.message
  | undecodable e => decodeLead ++ e.message
  | empty => "trace contains no transactions"

end TraceError

namespace TraceNode

open Json (Decoded)

/-! ## Decoding -/

/-- The fields of a node whose inside has `levels` levels left. -/
def fields (levels : Nat) (readChildren : Json → Decoded (List TraceNode)) :
    List (Json.Field TraceNode) :=
  [.require "transaction" (Transaction.ofJson levels)
     fun transaction node => { node with transaction },
   .optional "children" readChildren fun children node => { node with children }]

/-- A node, where `levels` levels are left: one goes to the node and one to its children. -/
def ofJson : Nat → Json → Decoded TraceNode
  | 0 => Json.readRecord none default
  | 1 => Json.readRecord (some (fields 0 (Json.readList none))) default
  | levels + 2 =>
    Json.readRecord (some (fields (levels + 1) (Json.readList (some (ofJson levels))))) default

/-- The roots of a document that is an array. -/
def rootsOfJson : Nat → Json → Decoded (List TraceNode)
  | 0 => Json.readList none
  | levels + 1 => Json.readList (some (ofJson levels))

mutual

/-- The document of a node. -/
def toJson : TraceNode → Json
  | ⟨tx, children⟩ =>
    .record [("transaction", tx.toJson), ("children", .array (itemsToJson children))]

def itemsToJson : List TraceNode → JsonItems
  | [] => .done
  | node :: nodes => .item (toJson node) (itemsToJson nodes)

end

end TraceNode

namespace Forest

/-! ## Building -/

/-- A bubble under a parent, or without one; nothing is added under a parent that is not live. -/
def addUnder? (F : Forest) (parent : Option BubbleId) (b : Bubble) : Option Forest :=
  match parent with
  | none => some (F.addRoot b)
  | some parent => F.addChild? parent b

mutual

/-- Add a node and everything below it. -/
def graft (F : Forest) (parent : Option BubbleId) : TraceNode → Forest
  | ⟨tx, children⟩ => match F.addUnder? parent (.ofTransaction tx.withOpcode) with
    | some F' => F'.graftAll (some F.nextId) children
    | none => F

/-- Add nodes in order, all under the same parent. -/
def graftAll (F : Forest) (parent : Option BubbleId) : List TraceNode → Forest
  | [] => F
  | node :: nodes => (F.graft parent node).graftAll parent nodes

end

/-- The forest of some roots, of which there has to be one. -/
def ofNodes (roots : List TraceNode) : Except TraceError Forest :=
  if roots.isEmpty then .error .empty else .ok (empty.graftAll none roots)

/-! ## Loading -/

/-- The roots stored in a document. -/
def decodeRoots (text : String) : Json.Decoded (List TraceNode) :=
  match Text.trimStart text.toList with
  | '[' :: _ => Json.decode TraceNode.rootsOfJson text
  | _ => (Json.decode TraceNode.ofJson text).map ([·])

/-- The forest stored in a document. -/
def ofText (text : String) : Except TraceError Forest :=
  match decodeRoots text with
  | .ok roots => ofNodes roots
  | .error e => .error (.undecodable e)

/-- The forest stored in a stream of bytes. -/
def ofBytes (bytes : ByteArray) : Except TraceError Forest :=
  match String.fromUTF8? bytes with
  | some text => ofText text
  | none => .error (.unreadable .notUtf8)

end Forest
end TraceFold
