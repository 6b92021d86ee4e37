import Wlcs.Lib.Memory

/-!
# The messages of `ThreadProxy`

Requests and replies cross the socket as bytes. A request is the opcode of the operation followed by the arguments, one
after the other; a reply is the returned value, or one null byte for an operation that returns nothing.

* `Callable` : what `register_op` accepts, with the sizes that its `static_assert`s check;
* `packBuffer`, `tupleFromBuffer` : the arguments to bytes and back (`tupleFromBuffer_packBuffer`);
* `opcodeBytes`, `readOpcode` : the opcode to bytes and back (`readOpcode_message`);
* `Callable.reply`, `waitForReply` : the two ends of a reply (`waitForReply_reply`).
-/

namespace Wlcs.ThreadProxy
open Memory

/-- The object representation of a trivially copyable value. -/
abbrev Bytes := List UInt8

def maxArgumentsSize : Nat := 1024

/-- `sizeof(uint32_t)` -/
def opcodeSize : Nat := 4

def maxMessageSize : Nat := maxArgumentsSize + opcodeSize

/-- The exceptions of `send_message` and `wait_for_reply`. -/
inductive ProxyError
  | sendFailed
  | sendShort
  | recvFailed
  | shortReply
deriving DecidableEq, Repr

def ProxyError.message : ProxyError → String
  | .sendFailed => "Failed to send message to Wayland thread"
  | .sendShort => "Failed to send whole message to Wayland thread"
  | .recvFailed => "Failed to receive reply from Wayland thread"
  | .shortReply => "Received short reply from Wayland thread"

/-- A callable that runs on a server with state `σ`: the sizes of its argument types, the size of its return type
(`none` for `void`), and what it does. -/
structure Callable (σ : Type*) where
  args : List Nat
  returns : Option Nat
  run : List Bytes → σ → Bytes × σ
  args_fit : args.sum < maxArgumentsSize
  returns_fit : ∀ n ∈ returns, n < maxMessageSize
  run_size : ∀ vs s, (run vs s).1.length = returns.getD 0

theorem noArguments_fit : ([] : List Nat).sum < maxArgumentsSize := by decide

theorem void_fit : ∀ n ∈ (none : Option Nat), n < maxMessageSize := nofun

theorem int_fit : ∀ n ∈ some 4, n < maxMessageSize := by
  intro n h
  obtain rfl := Option.some.inj h
  decide

/-! ## Arguments -/

def argumentsSize : List Bytes → Nat
  | [] => 0
  | head :: tail => head.length + argumentsSize tail

def packBuffer : List Bytes → Bytes
  | [] => []
  | arg :: args => arg ++ packBuffer args

/-- `none` stands for a read beyond the end of the message. -/
def tupleFromBuffer : List Nat → Bytes → Option (List Bytes)
  | [], _ => some []
  | size :: sizes, buffer =>
    if buffer.length < size then none
    else (tupleFromBuffer sizes (buffer.drop size)).map (buffer.take size :: ·)

theorem length_packBuffer (args : List Bytes) : (packBuffer args).length = argumentsSize args := by
  induction args with
  | nil => rfl
  | cons arg args ih => rw [packBuffer, List.length_append, ih, argumentsSize]

theorem argumentsSize_eq_sum (args : List Bytes) : argumentsSize args = (args.map List.length).sum := by
  induction args with
  | nil => rfl
  | cons arg args ih => rw [argumentsSize, ih, List.map_cons, List.sum_cons]

theorem tupleFromBuffer_packBuffer (args : List Bytes) :
    tupleFromBuffer (args.map List.length) (packBuffer args) = some args := by
  induction args with
  | nil => rfl
  | cons arg args ih =>
      have hlen : ¬ (arg ++ packBuffer args).length < arg.length := by
        rw [List.length_append]
        omega
      rw [List.map_cons, packBuffer, tupleFromBuffer, if_neg hlen, List.drop_left, List.take_left, ih]
      rfl

/-! ## Opcodes -/

/-- The bytes of a `uint32_t`; both ends of the socket are on one machine. -/
def opcodeBytes (opcode : UInt32) : Bytes := toBytes opcodeSize opcode.toNat

/-- The opcode at the start of a message and what follows it. -/
def readOpcode (buffer : Bytes) : Option (UInt32 × Bytes) :=
  (readAt buffer 0 opcodeSize).map fun bytes => (UInt32.ofNat (ofBytes bytes), buffer.drop opcodeSize)

/-- The buffer that `send_message` fills. -/
def message (opcode : UInt32) (args : List Bytes) : Bytes := opcodeBytes opcode ++ packBuffer args

@[simp] theorem length_opcodeBytes (opcode : UInt32) : (opcodeBytes opcode).length = opcodeSize := length_toBytes _ _

theorem readOpcode_opcodeBytes (opcode : UInt32) (rest : Bytes) :
    readOpcode (opcodeBytes opcode ++ rest) = some (opcode, rest) := by
  have hread := readAt_append [] (opcodeBytes opcode) rest
  rw [List.nil_append, List.length_nil, length_opcodeBytes] at hread
  have hdrop : (opcodeBytes opcode ++ rest).drop opcodeSize = rest := by
    rw [← length_opcodeBytes opcode, List.drop_left]
  rw [readOpcode, hread, Option.map_some, hdrop, opcodeBytes, ofBytes_toBytes opcode.toNat_lt, UInt32.ofNat_toNat]

theorem readOpcode_message (opcode : UInt32) (args : List Bytes) :
    readOpcode (message opcode args) = some (opcode, packBuffer args) := readOpcode_opcodeBytes opcode _

theorem length_message (opcode : UInt32) (args : List Bytes) :
    (message opcode args).length = opcodeSize + argumentsSize args := by
  rw [message, List.length_append, length_packBuffer, length_opcodeBytes]

/-- A request fits the buffers of both ends. -/
theorem length_message_le {σ : Type*} (c : Callable σ) (opcode : UInt32) {args : List Bytes}
    (h : args.map List.length = c.args) : (message opcode args).length ≤ maxMessageSize := by
  have hfit := c.args_fit
  rw [length_message, argumentsSize_eq_sum, h]
  unfold maxMessageSize
  omega

/-! ## Replies -/

section Replies
variable {σ : Type*}

/-- What the wrapper of a handler sends back: the value, or a dummy byte if there is none. -/
def Callable.reply (c : Callable σ) (value : Bytes) : Bytes :=
  match c.returns with
  | some _ => value
  | none => [0]

/-- The size of the variable into which `wait_for_reply` receives. -/
def Callable.replySize (c : Callable σ) : Nat := c.returns.getD 1

/-- What `wait_for_reply` and the thunk make of the message that the socket hands them. A longer message than expected
is cut off. -/
def waitForReply (c : Callable σ) (reply : Bytes) : Except ProxyError Bytes :=
  if reply.length < c.replySize then .error .shortReply
  else .ok (match c.returns with
    | some size => reply.take size
    | none => [])

theorem waitForReply_reply (c : Callable σ) (args : List Bytes) (s : σ) :
    waitForReply c (c.reply (c.run args s).1) = .ok (c.run args s).1 := by
  have hsize := c.run_size args s
  unfold waitForReply Callable.reply Callable.replySize
  cases hreturns : c.returns with
  | some size =>
      rw [hreturns, Option.getD_some] at hsize
      have hlen : ¬ (c.run args s).1.length < size := by omega
      simp only [Option.getD_some, if_neg hlen]
      rw [List.take_of_length_le (by omega)]
  | none =>
      rw [hreturns, Option.getD_none] at hsize
      rw [List.length_eq_zero_iff.mp hsize]
      rfl

end Replies

end Wlcs.ThreadProxy
