import Mathlib.Algebra.Ring.Nat

/-!
# Bytes, handles, errors and panics

What the modules of the `audioipc` crate share. A Rust function that may
panic is modelled in `Exec`, whose error is the panic site; a `Result` it
returns stays an ordinary `Except` value inside, so that state changes made
before an `Err` is returned are kept.
-/

namespace Audioipc

abbrev Bytes := List UInt8

/-- What a descriptor or `HANDLE` refers to. The number it has in one
process is not modelled: a handle that was transferred refers to the same
thing. -/
abbrev Handle := Nat

/-- `std::io::Error`, as far as the crate inspects it. -/
inductive IoError where
  | wouldBlock
  | interrupted
  | connectionAborted
  | os (errno : Nat)
  | other (msg : String)
deriving Repr, DecidableEq

/-- `would_block(e) || interrupted(e)`: the errors that `recv_inbound` and
`send_outbound` do not treat as fatal for the connection. -/
def IoError.transient : IoError → Bool
  | .wouldBlock => true
  | .interrupted => true
  | _ => false

/-- The places in which the modelled code can panic: the three assertions of
the codec, the two on the numbers of handles in `push_handle` and
`encode_handles`, the one of `send_msg` that there is something to send, and
the `expect` for the handle of an item. `handleArrayIndex` is an index past the
end of `[-1i32; HANDLE_QUEUE_LIMIT]`, `cmsgSlice` and `tooManyDescriptors` are
the slice of `decode_handles` and its `unwrap`. At `cmsgOverrun`,
`cmsg.advance_mut(cmsg_space)` past the capacity, the copies before it have
already run off the end of the allocation. `handler` is a panic of the message
handler. -/
inductive Panic where
  | magic
  | messageLen
  | encodedLen
  | handleQueueFull
  | inboundHandleExpected
  | sendEmpty
  | handleArrayIndex
  | tooManyHandles
  | cmsgOverrun
  | cmsgSlice
  | tooManyDescriptors
  | handler (msg : String)
deriving Repr, DecidableEq

/-- The panics that do not depend on what is in the stream from the peer. -/
def Panic.Local : Panic → Prop
  | .encodedLen | .handleQueueFull | .handler _ => True
  | _ => False

/-- A computation that returns or panics. -/
abbrev Exec := Except Panic

/-- A computation that returned is followed by the rest. -/
@[simp] theorem ok_bind {ε α β : Type} (a : α) (f : α → Except ε β) :
    (Except.ok a >>= f) = f a := rfl

end Audioipc
