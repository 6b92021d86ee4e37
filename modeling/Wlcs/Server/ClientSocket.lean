import Wlcs.Lib.Memory
import Wlcs.ThreadProxy.Message

/-!
# Errors of `create_client_socket`

`Server::Impl::create_client_socket` calls a thunk and, if the descriptor it gets is negative, throws a `system_error` of
`errno`. A `NullProxy` hands the callable back as the thunk; a `ThreadProxy` runs it on the thread of the server and
passes on what it returns. `errno` is not passed on: each thread has its own.

* `Hook` : what the `create_client_socket` of an integration may do;
* `Library` : what successful library calls leave in `errno`;
* `createClientSocket` : the outcome on the two routes;
* `create_client_socket_reports_iff` : when it reports the error of the hook.
-/

namespace Wlcs.Server.ClientSocket
open ThreadProxy

/-- The `errno` of the thread that calls `create_client_socket` and that of the thread of the server. -/
structure Errno where
  caller : Int
  server : Int
deriving DecidableEq, Repr

/-- A hook that succeeds may leave anything in the `errno` of its thread. -/
inductive Hook
  | returns (fd : Int32) (h : 0 ≤ fd) (errno : Int → Int)
  | fails (value : Int32) (h : value < 0) (errno : Int)

/-- What the hook returns, and the `errno` of the thread that it ran on. -/
def Hook.run : Hook → Int → Int32 × Int
  | .returns fd _ errno, before => (fd, errno before)
  | .fails value _ errno, _ => (value, errno)

/-- The error that the hook reports. -/
def Hook.error? : Hook → Option Int
  | .returns _ _ _ => none
  | .fails _ _ errno => some errno

/-- What a call that succeeds leaves in the `errno` of its thread. The standard does not say; on Linux it is what was there
before. -/
structure Library where
  lock : Int → Int
  unlock : Int → Int
  send : Int → Int
  recv : Int → Int

def Library.linux : Library := ⟨id, id, id, id⟩

/-- The `errno` of the caller after the send functor: it takes the lock, sends the request, waits for the reply, and
releases the lock. -/
def Library.acrossCall (library : Library) (errno : Int) : Int :=
  library.unlock (library.recv (library.send (library.lock errno)))

inductive SocketError
  | proxy (error : ProxyError)
  | system (code : Int) (what : String)
deriving DecidableEq, Repr

def failedToGetSocket : String := "Failed to get client socket from server"

/-! ## The two proxies -/

/-- An `int` in a reply. -/
def intBytes (value : Int32) : Bytes := Memory.toBytes 4 value.toUInt32.toNat

def readInt (bytes : Bytes) : Int32 := (UInt32.ofNat (Memory.ofBytes bytes)).toInt32

theorem readInt_intBytes (value : Int32) : readInt (intBytes value) = value := by
  rw [readInt, intBytes, Memory.ofBytes_toBytes value.toUInt32.toNat_lt, UInt32.ofNat_toNat]
  exact Int32.toInt32_toUInt32 value

/-- The callable that `initialise_thunks` registers. What it changes is the `errno` of its thread. -/
def callable (hook : Hook) : Callable Int where
  args := []
  returns := some 4
  run _ errno := (intBytes (hook.run errno).1, (hook.run errno).2)
  args_fit := noArguments_fit
  returns_fit := int_fit
  run_size _ _ := Memory.length_toBytes 4 _

inductive Route
  | nullProxy
  | threadProxy
deriving DecidableEq, Repr

/-- `create_client_socket_thunk()` -/
def thunk (library : Library) (hook : Hook) (errno : Errno) : Route → Except SocketError Int32 × Errno
  | .nullProxy =>
    (.ok (hook.run errno.caller).1, { errno with caller := (hook.run errno.caller).2 })
  | .threadProxy =>
    -- `socket_readable` receives the request, runs the handler and sends what it returned
    let (value, served) := (callable hook).run [] (library.recv errno.server)
    let after : Errno := ⟨library.acrossCall errno.caller, library.send served⟩
    match waitForReply (callable hook) ((callable hook).reply value) with
    | .ok bytes => (.ok (readInt bytes), after)
    | .error error => (.error (.proxy error), after)

def createClientSocket (library : Library) (hook : Hook) (errno : Errno) (route : Route) : Except SocketError Int32 :=
  match thunk library hook errno route with
  | (.ok fd, errno) => if fd < 0 then .error (.system errno.caller failedToGetSocket) else .ok fd
  | (.error error, _) => .error error

/-! ## Outcomes -/

/-- The descriptor of the hook, or a `system_error` of its error. -/
def Reported : Hook → Except SocketError Int32 → Prop
  | .returns fd _ _, outcome => outcome = .ok fd
  | .fails _ _ errno, outcome => outcome = .error (.system errno failedToGetSocket)

theorem thunk_threadProxy (library : Library) (hook : Hook) (errno : Errno) :
    thunk library hook errno .threadProxy =
      (.ok (hook.run (library.recv errno.server)).1,
        ⟨library.acrossCall errno.caller, library.send (hook.run (library.recv errno.server)).2⟩) := by
  have hreply := waitForReply_reply (callable hook) [] (library.recv errno.server)
  unfold thunk
  simp only [hreply]
  simp only [callable, readInt_intBytes]

theorem createClientSocket_nullProxy (library : Library) (hook : Hook) (errno : Errno) :
    Reported hook (createClientSocket library hook errno .nullProxy) := by
  cases hook with
  | returns fd h _ => exact if_neg (Int32.not_lt.mpr h)
  | fails value h _ => exact if_pos h

/-- Through the `ThreadProxy` the code is whatever the caller's own `errno` is. -/
theorem createClientSocket_threadProxy (library : Library) (hook : Hook) (errno : Errno) :
    createClientSocket library hook errno .threadProxy =
      match hook with
      | .returns fd _ _ => .ok fd
      | .fails _ _ _ => .error (.system (library.acrossCall errno.caller) failedToGetSocket) := by
  unfold createClientSocket
  rw [thunk_threadProxy]
  cases hook with
  | returns fd h _ => exact if_neg (Int32.not_lt.mpr h)
  | fails value h _ => exact if_pos h

theorem reported_threadProxy_iff (library : Library) (hook : Hook) (errno : Errno) :
    Reported hook (createClientSocket library hook errno .threadProxy) ↔
      ∀ e, hook.error? = some e → library.acrossCall errno.caller = e := by
  rw [createClientSocket_threadProxy]
  cases hook with
  | returns fd h _ => simp [Reported, Hook.error?]
  | fails value h e => simp [Reported, Hook.error?]

/-- There is one outcome that reports a hook. -/
theorem Reported.iff_eq {hook : Hook} {outcome other : Except SocketError Int32} (h : Reported hook outcome) :
    Reported hook other ↔ outcome = other := by
  cases hook with
  | returns fd _ _ =>
      rw [show outcome = .ok fd from h]
      exact eq_comm
  | fails _ _ e =>
      rw [show outcome = .error (.system e failedToGetSocket) from h]
      exact eq_comm

/-- Through a `NullProxy` the outcome always reports the hook. Through a `ThreadProxy` it does, and the outcome is the same
on both routes, exactly if the hook succeeds or its error happens to be the `errno` of the calling thread. -/
theorem create_client_socket_reports_iff (library : Library) (hook : Hook) (errno : Errno) :
    Reported hook (createClientSocket library hook errno .nullProxy) ∧
    (Reported hook (createClientSocket library hook errno .threadProxy) ↔
      ∀ e, hook.error? = some e → library.acrossCall errno.caller = e) ∧
    (createClientSocket library hook errno .nullProxy = createClientSocket library hook errno .threadProxy ↔
      ∀ e, hook.error? = some e → library.acrossCall errno.caller = e) := by
  have hnull := createClientSocket_nullProxy library hook errno
  have hthread := reported_threadProxy_iff library hook errno
  exact ⟨hnull, hthread, hnull.iff_eq.symm.trans hthread⟩

/-- The hook fails with `EMFILE`; the calling thread has had no error. -/
theorem create_client_socket_loses_errno :
    createClientSocket .linux (.fails (-1) (by decide) 24) ⟨0, 0⟩ .nullProxy = .error (.system 24 failedToGetSocket) ∧
      createClientSocket .linux (.fails (-1) (by decide) 24) ⟨0, 0⟩ .threadProxy =
        .error (.system 0 failedToGetSocket) :=
  ⟨createClientSocket_nullProxy .linux (.fails (-1) (by decide) 24) ⟨0, 0⟩,
    createClientSocket_threadProxy .linux (.fails (-1) (by decide) 24) ⟨0, 0⟩⟩

end Wlcs.Server.ClientSocket
