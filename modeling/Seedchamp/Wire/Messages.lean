import Mathlib.Algebra.Group.Nat.Defs
import Mathlib.Data.List.Basic

/-!
The outbound side of the peer wire protocol: messages and their encoding as length-prefixed frames.
-/

namespace Seedchamp.Wire.Messages

abbrev Bytes := List UInt8

inductive Message where
  | keepAlive
  | choke
  | unchoke
  | interested
  | notInterested
  | have_ (index : Nat)
  | bitfield (bits : Bytes)
  | request (index begin' length : Nat)
  | piece (index begin' : Nat) (block : Bytes)
  | cancel (index begin' length : Nat)
  | suggestPiece (index : Nat)
  | haveAll
  | haveNone
  | rejectRequest (index begin' length : Nat)
  | allowedFast (index : Nat)
  | extended (extId : UInt8) (payload : Bytes)
  | unknown (id : UInt8) (payload : Bytes)
  deriving DecidableEq, Repr

/-- `u32::to_be_bytes`. -/
def toBeBytes (n : Nat) : Bytes :=
  [UInt8.ofNat (n / 2 ^ 24), UInt8.ofNat (n / 2 ^ 16), UInt8.ofNat (n / 2 ^ 8), UInt8.ofNat n]

def MSG_CHOKE : UInt8 := 0
def MSG_UNCHOKE : UInt8 := 1
def MSG_INTERESTED : UInt8 := 2
def MSG_NOT_INTERESTED : UInt8 := 3
def MSG_HAVE : UInt8 := 4
def MSG_BITFIELD : UInt8 := 5
def MSG_REQUEST : UInt8 := 6
def MSG_PIECE : UInt8 := 7
def MSG_CANCEL : UInt8 := 8
def MSG_SUGGEST : UInt8 := 0x0d
def MSG_HAVE_ALL : UInt8 := 0x0e
def MSG_HAVE_NONE : UInt8 := 0x0f
def MSG_REJECT : UInt8 := 0x10
def MSG_ALLOWED_FAST : UInt8 := 0x11
def MSG_EXTENDED : UInt8 := 20

/-- A length-prefixed frame of an id and a payload. -/
def encodeId (id : UInt8) (payload : Bytes) : Bytes :=
  toBeBytes (1 + payload.length) ++ id :: payload

/-- The payload of the three block messages. -/
def blockFields (index begin' length : Nat) : Bytes :=
  toBeBytes index ++ toBeBytes begin' ++ toBeBytes length

def encodeMessage : Message → Bytes
  | .keepAlive => [0, 0, 0, 0]
  | .choke => encodeId MSG_CHOKE []
  | .unchoke => encodeId MSG_UNCHOKE []
  | .interested => encodeId MSG_INTERESTED []
  | .notInterested => encodeId MSG_NOT_INTERESTED []
  | .have_ index => encodeId MSG_HAVE (toBeBytes index)
  | .bitfield bits => encodeId MSG_BITFIELD bits
  | .request index begin' length => encodeId MSG_REQUEST (blockFields index begin' length)
  | .piece index begin' block => encodeId MSG_PIECE (toBeBytes index ++ toBeBytes begin' ++ block)
  | .cancel index begin' length => encodeId MSG_CANCEL (blockFields index begin' length)
  | .suggestPiece index => encodeId MSG_SUGGEST (toBeBytes index)
  | .haveAll => encodeId MSG_HAVE_ALL []
  | .haveNone => encodeId MSG_HAVE_NONE []
  | .rejectRequest index begin' length => encodeId MSG_REJECT (blockFields index begin' length)
  | .allowedFast index => encodeId MSG_ALLOWED_FAST (toBeBytes index)
  | .extended extId payload => encodeId MSG_EXTENDED (extId :: payload)
  | .unknown id payload => encodeId id payload

/-- A batch of whole messages, as the encode scratch concatenates them. -/
def encodeAll (messages : List Message) : Bytes := messages.flatMap encodeMessage

end Seedchamp.Wire.Messages
