import Wlcs.ThreadProxy.Message
import Wlcs.Lib.Fifo
import Wlcs.Lib.Machine

/-!
# `ThreadProxy` and the threads around it

The proxy with any number of client threads (the type `T`) and the event loop thread. A thread that calls a thunk takes
`message_serialiser`, sends its request, waits for a reply and gives the mutex back; the loop reads a request, runs the
handler it names and sends the reply. Each of these is a step of its own, and any step that is enabled may come next.
The thunks keep the proxy alive, so the message of its destructor is not part of a run.

The socket has two directions, `toWayland` and `toClient`. Replies carry no identification; what a reply answers is
known only to the logs that the model keeps beside the state:

* `called` : the calls in the order in which the threads made them;
* `acquired` : the calls in the order in which they got `message_serialiser`;
* `requested` : the calls whose request went into the socket;
* `invoked` : what the loop ran;
* `answered` : what `wait_for_reply` made of the replies it received.
-/

namespace Wlcs.ThreadProxy
open EventMachine

variable {T : Type} {σ : Type}

/-- An entry of `handlers`; the first is the destructor's, which has no reply. -/
inductive Handler (σ : Type)
  | destructor
  | op (callable : Callable σ)

/-- What `register_op` returns for a callable. -/
structure Thunk (σ : Type) where
  opcode : UInt32
  callable : Callable σ

/-- A thread calls a thunk; the arguments have the thunk's argument types. -/
structure Call (T σ : Type) where
  caller : T
  thunk : Thunk σ
  args : List Bytes
  fits : args.map List.length = thunk.callable.args

/-- A handler run with its arguments. -/
structure Job (σ : Type) where
  callable : Callable σ
  args : List Bytes

/-- The handler that a call is meant to run, with its arguments. -/
def Call.job (c : Call T σ) : Job σ := ⟨c.thunk.callable, c.args⟩

/-- The request that a call sends. -/
def Call.request (c : Call T σ) : Bytes := message c.thunk.opcode c.args

/-- A handler run by the loop, and what it returned. -/
structure Invocation (σ : Type) where
  job : Job σ
  value : Bytes

def Invocation.reply (i : Invocation σ) : Bytes := i.job.callable.reply i.value

/-- A reply received: by which call, the `request`-th of all that were sent, and which reply, the `reply`-th of all. -/
structure Answer (T σ : Type) where
  call : Call T σ
  request : Nat
  reply : Nat
  outcome : Except ProxyError Bytes

/-- Where a client thread is. -/
inductive Pc (T σ : Type)
  | idle
  /-- about to lock `message_serialiser` -/
  | calling (c : Call T σ)
  /-- about to send -/
  | locked (c : Call T σ)
  /-- in `recv`, after sending the `request`-th request -/
  | waiting (c : Call T σ) (request : Nat)
  /-- about to unlock `message_serialiser` and return or throw -/
  | returning (c : Call T σ) (outcome : Except ProxyError Bytes)

instance Pc.decidableIdle {T σ : Type} (pc : Pc T σ) : Decidable (pc = .idle) :=
  match pc with
  | .idle => .isTrue rfl
  | .calling _ | .locked _ | .waiting _ _ | .returning _ _ => .isFalse fun heq => by cases heq

/-- Where the event loop is. -/
inductive Loop
  | idle
  /-- `socket_readable` has received a message -/
  | dispatching (buffer : Bytes)
  /-- the handler has returned -/
  | replying (reply : Bytes)
  /-- the event source is gone -/
  | removed
  /-- the message could not be decoded -/
  | faulted

structure System (T σ : Type) where
  handlers : List (Handler σ)
  thunks : List (Thunk σ)
  messageSerialiser : Option T
  threads : T → Pc T σ
  toWayland : Fifo Bytes
  toClient : Fifo Bytes
  loop : Loop
  server : σ
  called : List (Call T σ)
  acquired : List (Call T σ)
  requested : List (Call T σ)
  invoked : List (Invocation σ)
  answered : List (Answer T σ)

/-- A proxy just constructed. -/
def System.fresh (server : σ) : System T σ where
  handlers := [.destructor]
  thunks := []
  messageSerialiser := none
  threads := fun _ => .idle
  toWayland := .empty
  toClient := .empty
  loop := .idle
  server := server
  called := []
  acquired := []
  requested := []
  invoked := []
  answered := []

inductive Action (T σ : Type)
  | register (callable : Callable σ)
  /-- thread `t` calls the thunk of the `k`-th registration -/
  | call (t : T) (k : Nat) (args : List Bytes)
  | lock (t : T)
  | send (t : T)
  | sendFails (t : T) (short : Bool)
  | recv (t : T)
  | recvFails (t : T)
  | unlock (t : T)
  | loopRecv
  | dispatch
  | sendReply

/-! ## The event loop -/

/-- `register_op` -/
def System.registerOp (s : System T σ) (callable : Callable σ) : System T σ :=
  let nextOpcode := s.handlers.length
  { s with
    handlers := s.handlers ++ [.op callable]
    -- the number of handlers is narrowed to 32 bits
    thunks := s.thunks ++ [⟨UInt32.ofNat nextOpcode, callable⟩] }

/-- `socket_readable` calls the handler that the message names, and `make_recv_functor` unpacks the arguments. -/
def System.dispatch (s : System T σ) (buffer : Bytes) : System T σ :=
  match readOpcode buffer with
  | none => { s with loop := .faulted }
  | some (opcode, data) =>
    match s.handlers[opcode.toNat]? with
    | none => { s with loop := .faulted }
    | some .destructor => { s with loop := .removed }
    | some (.op callable) =>
      match tupleFromBuffer callable.args data with
      | none => { s with loop := .faulted }
      | some args =>
        let (value, server) := callable.run args s.server
        { s with
          server := server
          loop := .replying (callable.reply value)
          invoked := s.invoked ++ [⟨⟨callable, args⟩, value⟩] }

/-! ## Steps -/

section Steps
variable [DecidableEq T]

def System.goto (s : System T σ) (t : T) (pc : Pc T σ) : System T σ :=
  { s with threads := Function.update s.threads t pc }

def System.step (s : System T σ) : Action T σ → Option (System T σ)
  | .register callable => some (s.registerOp callable)
  | .call t k args =>
    match s.threads t, s.thunks[k]? with
    | .idle, some thunk =>
      if h : args.map List.length = thunk.callable.args then
        let c : Call T σ := ⟨t, thunk, args, h⟩
        some { s.goto t (.calling c) with called := s.called ++ [c] }
      else none
    | _, _ => none
  | .lock t =>
    match s.threads t, s.messageSerialiser with
    | .calling c, none =>
      some { s.goto t (.locked c) with messageSerialiser := some t, acquired := s.acquired ++ [c] }
    | _, _ => none
  | .send t =>
    match s.threads t with
    | .locked c =>
      some { s.goto t (.waiting c s.requested.length) with
        toWayland := s.toWayland.push c.request
        requested := s.requested ++ [c] }
    | _ => none
  | .sendFails t short =>
    match s.threads t with
    | .locked c => some (s.goto t (.returning c (.error (if short then .sendShort else .sendFailed))))
    | _ => none
  | .recv t =>
    match s.threads t, s.toClient.pop with
    | .waiting c request, some (reply, toClient) =>
      let outcome := waitForReply c.thunk.callable reply
      some { s.goto t (.returning c outcome) with
        toClient := toClient
        answered := s.answered ++ [⟨c, request, s.toClient.taken, outcome⟩] }
    | _, _ => none
  | .recvFails t =>
    match s.threads t with
    | .waiting c _ => some (s.goto t (.returning c (.error .recvFailed)))
    | _ => none
  | .unlock t =>
    match s.threads t with
    | .returning _ _ => some { s.goto t .idle with messageSerialiser := none }
    | _ => none
  | .loopRecv =>
    match s.loop, s.toWayland.pop with
    | .idle, some (request, toWayland) =>
      some { s with toWayland := toWayland, loop := .dispatching (request.take maxMessageSize) }
    | _, _ => none
  | .dispatch =>
    match s.loop with
    | .dispatching buffer => some (s.dispatch buffer)
    | _ => none
  | .sendReply =>
    match s.loop with
    | .replying reply => some { s with toClient := s.toClient.push reply, loop := .idle }
    | _ => none

def proxy : Guarded (System T σ) (Action T σ) where
  step := System.step

end Steps

/-! ## The same calls without a proxy -/

/-- `NullProxy::register_op` returns the handler itself: the calls run one after the other where they are made. -/
def nullProxy (server : σ) : List (Job σ) → List Bytes × σ
  | [] => ([], server)
  | job :: jobs =>
    let (value, server) := job.callable.run job.args server
    let (values, server) := nullProxy server jobs
    (value :: values, server)

theorem nullProxy_concat (server : σ) (jobs : List (Job σ)) (job : Job σ) :
    nullProxy server (jobs ++ [job]) =
      ((nullProxy server jobs).1 ++ [(job.callable.run job.args (nullProxy server jobs).2).1],
        (job.callable.run job.args (nullProxy server jobs).2).2) := by
  induction jobs generalizing server with
  | nil => rfl
  | cons j jobs ih =>
      simp only [List.cons_append, nullProxy, ih]

end Wlcs.ThreadProxy
