import Wlcs.Lib.Memory
import Wlcs.ThreadProxy.Message

/-!
# Serialisation in the buffers

A request is built in a buffer of `max_message_size` bytes on the stack of the caller and taken apart in another one on
the stack of the server thread. What the two buffers held before is arbitrary; `none` stands for a byte outside one of
them.

* `CopyableType`, `Signature` : the argument types that `register_op` accepts (`unsigned` : some of them);
* `packBuffer`, `tupleFromBuffer` : the two recursions over the argument types, each with its own offset;
* `packBuffer_append`, `tupleFromBuffer_append` : both follow the layout of `message`;
* `serialisation_round_trip` : what `socket_readable` and the handler get is what was sent.
-/

namespace Wlcs.ThreadProxy.Buffer
open Memory

/-- A trivially copyable type that is not empty: copying the bytes of a value copies the value. -/
structure CopyableType where
  Val : Type
  size : Nat
  size_pos : 0 < size
  bytes : Val → Bytes
  length_bytes : ∀ value, (bytes value).length = size
  ofBytes : Bytes → Val
  ofBytes_bytes : ∀ value, ofBytes (bytes value) = value

/-- The unsigned integers of some size, and the addresses. -/
def unsigned (size : Nat) (h : 0 < size) : CopyableType where
  Val := BitVec (8 * size)
  size := size
  size_pos := h
  bytes value := toBytes size value.toNat
  length_bytes _ := length_toBytes _ _
  ofBytes bytes := BitVec.ofNat _ (Memory.ofBytes bytes)
  ofBytes_bytes value := by rw [ofBytes_toBytes value.isLt, BitVec.ofNat_toNat, BitVec.setWidth_eq]

/-- `std::tuple<Args...>` -/
def Tuple : List CopyableType → Type
  | [] => Unit
  | head :: tail => head.Val × Tuple tail

/-- The arguments of a callable that passes the `static_assert`s of `register_op`. Only the size of their tuple is
checked there, which is at least the sum of their sizes. -/
structure Signature where
  args : List CopyableType
  tupleSize : Nat
  sum_le : (args.map CopyableType.size).sum ≤ tupleSize
  fits : tupleSize < maxArgumentsSize

/-! ## The two ends -/

/-- `arguments_size(args...)` -/
def argumentsSize : List CopyableType → Nat
  | [] => 0
  | head :: tail => head.size + argumentsSize tail

/-- `pack_buffer(buffer + offset, args...)` -/
def packBuffer : (types : List CopyableType) → Tuple types → Bytes → Nat → Option Bytes
  | [], _, buffer, _ => some buffer
  | head :: tail, (arg, args), buffer, offset => do
    let buffer ← writeAt buffer offset (head.bytes arg)
    packBuffer tail args buffer (offset + head.size)

/-- `tuple_from_buffer(buffer + offset, type_resolver)` -/
def tupleFromBuffer : (types : List CopyableType) → Bytes → Nat → Option (Tuple types)
  | [], _, _ => some ()
  | head :: tail, buffer, offset => do
    let alignedArg ← readAt buffer offset head.size
    let args ← tupleFromBuffer tail buffer (offset + head.size)
    return (head.ofBytes alignedArg, args)

/-- The bytes that `send_message` places on the socket. -/
def sendMessage (types : List CopyableType) (opcode : UInt32) (args : Tuple types)
    (buffer : Vector UInt8 maxMessageSize) : Option Bytes := do
  let buffer ← writeAt buffer.toList 0 (opcodeBytes opcode)
  let buffer ← packBuffer types args buffer opcodeSize
  readAt buffer 0 (opcodeSize + argumentsSize types)

/-- `recv` of a packet; what does not fit is lost. -/
def recv (buffer packet : Bytes) : Bytes := packet.take buffer.length ++ buffer.drop packet.length

/-- `socket_readable`: the opcode, and the rest of the buffer, with which it calls the handler. -/
def socketReadable (buffer : Vector UInt8 maxMessageSize) (packet : Bytes) : Option (UInt32 × Bytes) :=
  readOpcode (recv buffer.toList packet)

/-! ## The layout -/

/-- The arguments as the values that the messages are made of. -/
def representations : (types : List CopyableType) → Tuple types → List Bytes
  | [], _ => []
  | head :: tail, (arg, args) => head.bytes arg :: representations tail args

theorem argumentsSize_eq_sum (types : List CopyableType) :
    argumentsSize types = (types.map CopyableType.size).sum := by
  induction types with
  | nil => rfl
  | cons head tail ih => rw [argumentsSize, ih, List.map_cons, List.sum_cons]

theorem argumentsSize_representations (types : List CopyableType) (args : Tuple types) :
    ThreadProxy.argumentsSize (representations types args) = argumentsSize types := by
  induction types with
  | nil => rfl
  | cons head tail ih =>
      obtain ⟨arg, args⟩ := args
      rw [representations, ThreadProxy.argumentsSize, head.length_bytes, ih, argumentsSize]

theorem length_message_representations (opcode : UInt32) (types : List CopyableType) (args : Tuple types) :
    (message opcode (representations types args)).length = opcodeSize + argumentsSize types := by
  rw [length_message, argumentsSize_representations]

theorem packBuffer_append (types : List CopyableType) (args : Tuple types) (before : Bytes) {rest : Bytes}
    (h : argumentsSize types ≤ rest.length) :
    packBuffer types args (before ++ rest) before.length =
      some (before ++ ThreadProxy.packBuffer (representations types args) ++ rest.drop (argumentsSize types)) := by
  -- the arguments packed so far join `before`, so that the offset stays at its end
  induction types generalizing before rest with
  | nil => simp [packBuffer, representations, ThreadProxy.packBuffer, argumentsSize]
  | cons head tail ih =>
      obtain ⟨arg, args⟩ := args
      have hsize := head.length_bytes arg
      rw [argumentsSize] at h
      have hoffset : before.length + head.size = (before ++ head.bytes arg).length := by
        rw [List.length_append, hsize]
      have htail : argumentsSize tail ≤ (rest.drop head.size).length := by
        rw [List.length_drop]
        omega
      rw [packBuffer, writeAt_append before (by omega), Option.bind_eq_bind, Option.bind_some, hsize, hoffset,
        ih args _ htail, representations, ThreadProxy.packBuffer, List.drop_drop, argumentsSize]
      simp only [List.append_assoc]

theorem tupleFromBuffer_append (types : List CopyableType) (args : Tuple types) (before after : Bytes) :
    tupleFromBuffer types (before ++ ThreadProxy.packBuffer (representations types args) ++ after) before.length =
      some args := by
  induction types generalizing before with
  | nil => rfl
  | cons head tail ih =>
      obtain ⟨arg, args⟩ := args
      have hread := readAt_append before (head.bytes arg) (ThreadProxy.packBuffer (representations tail args) ++ after)
      have htail := ih args (before ++ head.bytes arg)
      rw [List.length_append] at htail
      rw [head.length_bytes] at hread htail
      simp only [List.append_assoc] at hread htail
      simp only [tupleFromBuffer, representations, ThreadProxy.packBuffer, List.append_assoc, hread, htail]
      show some (head.ofBytes (head.bytes arg), args) = some (arg, args)
      rw [head.ofBytes_bytes]

/-- `send_message` builds the message of the opcode and the arguments. -/
theorem sendMessage_eq {types : List CopyableType} (opcode : UInt32) (args : Tuple types)
    (buffer : Vector UInt8 maxMessageSize) (h : argumentsSize types < maxArgumentsSize) :
    sendMessage types opcode args buffer = some (message opcode (representations types args)) := by
  have hbuffer : buffer.toList.length = maxMessageSize := Vector.length_toList
  have hopcode := length_opcodeBytes opcode
  have hwrite := writeAt_append [] (show (opcodeBytes opcode).length ≤ buffer.toList.length by
    rw [hbuffer, hopcode, maxMessageSize]
    omega)
  have hpack := packBuffer_append types args (opcodeBytes opcode)
    (show argumentsSize types ≤ (buffer.toList.drop (opcodeBytes opcode).length).length by
      rw [List.length_drop, hbuffer, hopcode, maxMessageSize]
      omega)
  have hread := readAt_append [] (message opcode (representations types args))
    ((buffer.toList.drop (opcodeBytes opcode).length).drop (argumentsSize types))
  rw [length_message_representations] at hread
  simp only [List.nil_append, List.length_nil] at hwrite hread
  rw [sendMessage, hwrite, Option.bind_eq_bind, Option.bind_some, ← hopcode, hpack, Option.bind_some]
  exact hread

/-- The bytes on the socket are the opcode and the arguments, they fit both buffers, and the other end recovers from
them the opcode and every argument. -/
theorem serialisation_round_trip (signature : Signature) (opcode : UInt32) (args : Tuple signature.args)
    (sender receiver : Vector UInt8 maxMessageSize) :
    ∃ packet rest,
      sendMessage signature.args opcode args sender = some packet ∧
      packet.length = 4 + (signature.args.map CopyableType.size).sum ∧
      packet.length ≤ maxMessageSize ∧
      socketReadable receiver packet = some (opcode, rest) ∧
      tupleFromBuffer signature.args rest 0 = some args := by
  have hsum := argumentsSize_eq_sum signature.args
  have hfits : argumentsSize signature.args < maxArgumentsSize := by
    have := signature.sum_le
    have := signature.fits
    omega
  have hlen := length_message_representations opcode signature.args args
  have hreceiver : receiver.toList.length = maxMessageSize := Vector.length_toList
  have hle : (message opcode (representations signature.args args)).length ≤ maxMessageSize := by
    rw [hlen, maxMessageSize]
    omega
  refine ⟨message opcode (representations signature.args args),
    ThreadProxy.packBuffer (representations signature.args args) ++
      receiver.toList.drop (message opcode (representations signature.args args)).length,
    sendMessage_eq opcode args sender hfits, ?_, hle, ?_, ?_⟩
  · rw [hlen, hsum]
    rfl
  · rw [socketReadable, recv, hreceiver, List.take_of_length_le hle, message, List.append_assoc]
    exact readOpcode_opcodeBytes opcode _
  · exact tupleFromBuffer_append signature.args args [] _

/-- An address, a `uint32_t` and a `uint8_t`; their tuple is padded to 16 bytes. -/
def mixed : Signature where
  args := [unsigned 8 (by decide), unsigned 4 (by decide), unsigned 1 (by decide)]
  tupleSize := 16
  sum_le := by decide
  fits := by decide

def mixedArgs : Tuple mixed.args :=
  ((0x7ffd12345678#64, 9#32, 255#8, ()) : BitVec (8 * 8) × BitVec (8 * 4) × BitVec (8 * 1) × Unit)

/-- The buffers hold other bytes before. -/
theorem serialisation_round_trip_mixed :
    ∃ packet rest,
      sendMessage mixed.args 7 mixedArgs (Vector.replicate _ 0xaa) = some packet ∧ packet.length = 17 ∧
      socketReadable (Vector.replicate _ 0x55) packet = some (7, rest) ∧
      tupleFromBuffer mixed.args rest 0 = some mixedArgs := by
  obtain ⟨packet, rest, hsent, hlength, -, hreceived, hargs⟩ :=
    serialisation_round_trip mixed 7 mixedArgs (Vector.replicate _ 0xaa) (Vector.replicate _ 0x55)
  exact ⟨packet, rest, hsent, hlength, hreceived, hargs⟩

end Wlcs.ThreadProxy.Buffer
