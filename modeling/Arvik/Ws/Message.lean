import Arvik.Foundation.Text

/-!
# WebSocket messages

The messages of an application, and their translation from and to those of the protocol library. A
message that is sent is translated, and translated back by its receiver.

The codes of a close frame are numbers: `CloseCode` names thirteen of them, and has `Other` for all
numbers, also for those it names. So a number is read back (`CloseCode.toU16_ofU16`), but a code
only up to its name (`CloseCode.ofU16_toU16_iff`), and the same holds of messages
(`Message.ofTungstenite_toTungstenite`).

The type of the codes of the library is a parameter with its two conversions, since the names the
library has for numbers are its own affair: a code goes through it as its number, and the number is
what comes out on the other side. Raw frames are the one kind of message without a counterpart, and
the translation is partial there and nowhere else.
-/

/-! ### The library -/

namespace Tungstenite

/-- The close codes of the library, which a number turns into and back. -/
class CloseCodeLib (C : Type) where
  toU16 : C → UInt16
  ofU16 : UInt16 → C
  toU16_ofU16 : ∀ n, toU16 (ofU16 n) = n

structure CloseFrame (C : Type) where
  code : C
  reason : Str
  deriving DecidableEq

inductive Message (C : Type)
  | text (text : Str)
  | binary (data : Bytes)
  | ping (data : Bytes)
  | pong (data : Bytes)
  | close (frame : Option (CloseFrame C))
  /-- A raw frame. -/
  | frame (raw : Bytes)
  deriving DecidableEq

end Tungstenite

namespace WebSocket

/-! ### Close codes -/

/-- The status of a closed connection. -/
inductive CloseCode
  | normal
  | away
  | protocol
  | unsupported
  | status
  | abnormal
  | invalid
  | policy
  | size
  | extension
  | error
  | restart
  | again
  | other (n : UInt16)
  deriving DecidableEq, Repr

namespace CloseCode

def toU16 : CloseCode → UInt16
  | normal => 1000
  | away => 1001
  | protocol => 1002
  | unsupported => 1003
  | status => 1005
  | abnormal => 1006
  | invalid => 1007
  | policy => 1008
  | size => 1009
  | extension => 1010
  | error => 1011
  | restart => 1012
  | again => 1013
  | other n => n

def ofU16 (n : UInt16) : CloseCode :=
  match n.toNat with
  | 1000 => normal
  | 1001 => away
  | 1002 => protocol
  | 1003 => unsupported
  | 1005 => status
  | 1006 => abnormal
  | 1007 => invalid
  | 1008 => policy
  | 1009 => size
  | 1010 => extension
  | 1011 => error
  | 1012 => restart
  | 1013 => again
  | _ => other n

/-- **A number is read back** from its code. -/
@[simp]
theorem toU16_ofU16 (n : UInt16) : (ofU16 n).toU16 = n := by
  rw [ofU16]
  split <;> first | rfl | exact UInt16.toNat.inj (Eq.symm ‹_›)

/-- A code is read back from its number, unless it is `other` of a number that has a name. -/
theorem ofU16_toU16_iff {code : CloseCode} :
    ofU16 code.toU16 = code ↔ ∀ n, code = other n → ofU16 n = other n := by
  constructor
  · rintro h n rfl
    exact h
  · intro h
    rcases code with - | - | - | - | - | - | - | - | - | - | - | - | - | n
    case other => exact h n rfl
    all_goals rfl

example : ofU16 (other 1000).toU16 = normal := by decide

variable {C : Type} [Tungstenite.CloseCodeLib C]

/-- The code of the library. -/
def toTungstenite (code : CloseCode) : C :=
  Tungstenite.CloseCodeLib.ofU16 code.toU16

def ofTungstenite (code : C) : CloseCode :=
  ofU16 (Tungstenite.CloseCodeLib.toU16 code)

/-- Through the library a code goes as its number. -/
theorem ofTungstenite_toTungstenite (code : CloseCode) :
    ofTungstenite (code.toTungstenite : C) = ofU16 code.toU16 := by
  rw [ofTungstenite, toTungstenite, Tungstenite.CloseCodeLib.toU16_ofU16]

end CloseCode

/-! ### Messages -/

structure CloseFrame where
  code : CloseCode
  reason : Str
  deriving DecidableEq, Repr

/-- Normal close with no reason. -/
def CloseFrame.normal : CloseFrame :=
  ⟨.normal, []⟩

inductive Message
  | text (text : Str)
  | binary (data : Bytes)
  | ping (data : Bytes)
  | pong (data : Bytes)
  | close (frame : Option CloseFrame)
  deriving DecidableEq, Repr

namespace Message

variable {C : Type} [Tungstenite.CloseCodeLib C]

/-- The message for the library. -/
def toTungstenite : Message → Tungstenite.Message C
  | text t => .text t
  | binary data => .binary data
  | ping data => .ping data
  | pong data => .pong data
  | close frame => .close (frame.map fun f ↦ ⟨f.code.toTungstenite, f.reason⟩)

/-- The message for the application. A raw frame is none: the code is not reached there. -/
def ofTungstenite : Tungstenite.Message C → Option Message
  | .text t => some (text t)
  | .binary data => some (binary data)
  | .ping data => some (ping data)
  | .pong data => some (pong data)
  | .close frame => some (close (frame.map fun f ↦ ⟨.ofTungstenite f.code, f.reason⟩))
  | .frame _ => none

/-- The message with its code under the name it has. -/
def canonical : Message → Message
  | close frame => close (frame.map fun f ↦ { f with code := .ofU16 f.code.toU16 })
  | msg => msg

/-- **What is sent is received**, with its code under the name it has. -/
theorem ofTungstenite_toTungstenite (msg : Message) :
    ofTungstenite (msg.toTungstenite : Tungstenite.Message C) = some msg.canonical := by
  rcases msg with t | data | data | data | frame
  case close =>
    show some (close ((frame.map _).map _)) = some (close (frame.map _))
    rw [Option.map_map]
    congr 3
    funext f
    show CloseFrame.mk _ _ = CloseFrame.mk _ _
    rw [CloseCode.ofTungstenite_toTungstenite]
  all_goals rfl

end Message

end WebSocket
