import Wlcs.Lib.Fifo
import Wlcs.Lib.History

/-!
# Barriers over two queues

A client sends requests through one queue; a server answers them in their order through another, through which it may
also send events of its own. A `sync` is a request that is answered with a `done` of its number.

* `Link` : the two queues, and what the client and the server do with them;
* `Barred` : the invariant, whatever they do in whatever order;
* `Barred.answered` : once the client has received a `done`, it has received the answers to all requests before the `sync`;
* `Barred.progress` : until then one of them can go on.
-/

namespace Barrier
variable {R E : Type*}

inductive Message (R : Type*)
  | request (r : R)
  | sync (n : Nat)
deriving DecidableEq, Repr

inductive Reply (E : Type*)
  | event (e : E)
  | done (n : Nat)
deriving DecidableEq, Repr

/-- The queue from the client to the server and the one back, and the answers that the server has given. -/
structure Link (R E : Type*) where
  requests : Fifo (Message R) := .empty
  events : Fifo (Reply E) := .empty
  answers : List (R × List E) := []
  /-- the number of the next `sync` -/
  syncs : Nat := 0

namespace Link

def received (l : Link R E) : List (Reply E) := l.events.sent.take l.events.taken

def send (l : Link R E) (r : R) : Link R E := { l with requests := l.requests.push (.request r) }

def sync (l : Link R E) : Link R E := { l with requests := l.requests.push (.sync l.syncs), syncs := l.syncs + 1 }

def emit (l : Link R E) (e : E) : Link R E := { l with events := l.events.push (.event e) }

/-- The server takes its oldest request; `es` is its answer to one that is not a `sync`. -/
def serve (l : Link R E) (replies : R → List E → Bool) (es : List E) : Option (Link R E) :=
  match l.requests.pop with
  | some (.request r, requests) =>
    if replies r es then some (es.foldl emit { l with requests, answers := l.answers ++ [(r, es)] }) else none
  | some (.sync n, requests) => some { l with requests, events := l.events.push (.done n) }
  | none => none

/-- The client takes the oldest event. -/
def receive (l : Link R E) : Option (Reply E × Link R E) :=
  match l.events.pop with
  | some (reply, events) => some (reply, { l with events })
  | none => none

end Link

/-! ## What has been answered -/

variable {replies : R → List E → Bool}

/-- The server has given an answer to `r`, one that it may give, and that answer is part of the events. -/
def Answered (replies : R → List E → Bool) (answers : List (R × List E)) (r : R) (events : List (Reply E)) : Prop :=
  ∃ es, replies r es = true ∧ (r, es) ∈ answers ∧ es.map .event <:+: events

theorem Answered.mono {answers given : List (R × List E)} {r : R} {events more : List (Reply E)}
    (h : Answered replies answers r events) (ha : answers ⊆ given) (hm : events <:+: more) :
    Answered replies given r more := by
  obtain ⟨es, hes, hgiven, hinfix⟩ := h
  exact ⟨es, hes, ha hgiven, hinfix.trans hm⟩

theorem Answered.append {answers : List (R × List E)} {r : R} {events : List (Reply E)}
    (h : Answered replies answers r events) (more : List (Reply E)) : Answered replies answers r (events ++ more) :=
  h.mono (List.Subset.refl _) (List.prefix_append events more).isInfix

/-- The invariant: answers come in the order of the requests. -/
structure Barred (replies : R → List E → Bool) (l : Link R E) : Prop where
  /-- a number is used once -/
  fresh : ∀ n, .sync n ∈ l.requests.sent → n < l.syncs
  once : ∀ n pre pre', pre ++ [.sync n] <+: l.requests.sent → pre' ++ [.sync n] <+: l.requests.sent → pre = pre'
  asked : ∀ n, .done n ∈ l.events.sent → .sync n ∈ l.requests.sent
  served : ∀ r, .request r ∈ l.requests.sent.take l.requests.taken → Answered replies l.answers r l.events.sent
  synced : ∀ n, .sync n ∈ l.requests.sent.take l.requests.taken → .done n ∈ l.events.sent
  ordered : ∀ n before, before ++ [.done n] <+: l.events.sent →
    ∀ pre, pre ++ [.sync n] <+: l.requests.sent → ∀ r, .request r ∈ pre → Answered replies l.answers r before

theorem Barred.init : Barred replies ({} : Link R E) where
  fresh := fun _ h => absurd h List.not_mem_nil
  once := fun _ _ _ h => absurd (List.prefix_nil.mp h) (by simp)
  asked := fun _ h => absurd h List.not_mem_nil
  served := fun _ h => absurd h List.not_mem_nil
  synced := fun _ h => absurd h List.not_mem_nil
  ordered := fun _ _ h => absurd (List.prefix_nil.mp h) (by simp)

theorem take_push {α : Type*} (f : Fifo α) (a : α) : (f.push a).sent.take (f.push a).taken = f.sent.take f.taken := by
  rw [Fifo.sent_push, Fifo.taken_push, List.take_append_of_le_length f.taken_le]

/-- The request at the head of the queue. -/
theorem take_pop {α : Type*} {f g : Fifo α} {a : α} (h : f.pop = some (a, g)) :
    g.sent.take g.taken = f.sent.take f.taken ++ [a] := by
  obtain ⟨hhead, hsent, htaken⟩ := Fifo.pop_eq_some.mp h
  rw [hsent, htaken, List.take_add_one, hhead]
  rfl

theorem Barred.send {l : Link R E} (h : Barred replies l) (r : R) : Barred replies (l.send r) := by
  have hmem : ∀ n, (.sync n ∈ (l.send r).requests.sent ↔ .sync n ∈ l.requests.sent) := by
    intro n
    rw [Link.send, Fifo.sent_push, List.mem_append, List.mem_singleton]
    exact or_iff_left nofun
  have hpres : ∀ n pre, pre ++ [.sync n] <+: (l.send r).requests.sent → pre ++ [.sync n] <+: l.requests.sent := by
    intro n pre hpre
    rcases History.concat_prefix_concat.mp hpre with ⟨-, hsync⟩ | hpre
    · cases hsync
    · exact hpre
  refine ⟨fun n hn => h.fresh n ((hmem n).mp hn), fun n pre pre' hpre hpre' => ?_, fun n hn => (hmem n).mpr (h.asked n hn),
    fun r' hr' => ?_, fun n hn => ?_, fun n before hbefore pre hpre => h.ordered n before hbefore pre (hpres n pre hpre)⟩
  · exact h.once n pre pre' (hpres n pre hpre) (hpres n pre' hpre')
  · refine h.served r' ?_
    rwa [Link.send, take_push] at hr'
  · refine h.synced n ?_
    rwa [Link.send, take_push] at hn

theorem Barred.sync {l : Link R E} (h : Barred replies l) : Barred replies l.sync := by
  have hsplit : ∀ n pre, pre ++ [.sync n] <+: l.sync.requests.sent →
      (pre = l.requests.sent ∧ n = l.syncs) ∨ pre ++ [.sync n] <+: l.requests.sent := by
    intro n pre hpre
    rcases History.concat_prefix_concat.mp hpre with ⟨hpre, hn⟩ | hpre
    · exact Or.inl ⟨hpre, Message.sync.inj hn⟩
    · exact Or.inr hpre
  have hmem : ∀ n pre, pre ++ [Message.sync n] <+: l.requests.sent → n < l.syncs := by
    intro n pre hpre
    exact h.fresh n (hpre.subset (List.mem_append_right _ (List.mem_singleton_self _)))
  refine ⟨fun n hn => ?_, fun n pre pre' hpre hpre' => ?_, fun n hn => List.mem_append_left _ (h.asked n hn),
    fun r hr => ?_, fun n hn => ?_, fun n before hbefore pre hpre r hr => ?_⟩
  · show n < l.syncs + 1
    rcases List.mem_append.mp hn with hn | hn
    · exact Nat.lt_succ_of_lt (h.fresh n hn)
    · rw [Message.sync.inj (List.mem_singleton.mp hn)]
      exact Nat.lt_succ_self _
  · rcases hsplit n pre hpre with ⟨hpre, hn⟩ | hpre
    · rcases hsplit n pre' hpre' with ⟨hpre', -⟩ | hpre'
      · rw [hpre, hpre']
      · exact absurd (hmem n pre' hpre') (by omega)
    · rcases hsplit n pre' hpre' with ⟨-, hn⟩ | hpre'
      · exact absurd (hmem n pre hpre) (by omega)
      · exact h.once n pre pre' hpre hpre'
  · refine h.served r ?_
    rwa [Link.sync, take_push] at hr
  · refine h.synced n ?_
    rwa [Link.sync, take_push] at hn
  · rcases hsplit n pre hpre with ⟨-, hn⟩ | hpre
    · -- the new number has not been answered
      have hdone : .done n ∈ l.events.sent := hbefore.subset (List.mem_append_right _ (List.mem_singleton_self _))
      have hlt := h.fresh n (h.asked n hdone)
      omega
    · exact h.ordered n before hbefore pre hpre r hr

theorem Barred.emit {l : Link R E} (h : Barred replies l) (e : E) : Barred replies (l.emit e) := by
  refine ⟨h.fresh, h.once, fun n hn => ?_, fun r hr => (h.served r hr).append _,
    fun n hn => List.mem_append_left _ (h.synced n hn), fun n before hbefore => ?_⟩
  · refine h.asked n ?_
    rcases List.mem_append.mp hn with hn | hn
    · exact hn
    · cases List.mem_singleton.mp hn
  · rcases History.concat_prefix_concat.mp hbefore with ⟨-, hdone⟩ | hbefore
    · cases hdone
    · exact h.ordered n before hbefore

theorem Barred.emits {l : Link R E} (h : Barred replies l) (es : List E) : Barred replies (es.foldl Link.emit l) := by
  induction es generalizing l with
  | nil => exact h
  | cons e es ih => exact ih (h.emit e)

theorem foldl_emit_sent (l : Link R E) (es : List E) :
    (es.foldl Link.emit l).events.sent = l.events.sent ++ es.map .event := by
  induction es generalizing l with
  | nil => exact (List.append_nil _).symm
  | cons e es ih =>
      rw [List.foldl_cons, ih, List.map_cons, Link.emit, Fifo.sent_push, List.append_assoc]
      rfl

theorem foldl_emit_with (l : Link R E) (es : List E) (requests : Fifo (Message R)) (answers : List (R × List E)) :
    es.foldl Link.emit { l with requests, answers } = { es.foldl Link.emit l with requests, answers } := by
  induction es generalizing l with
  | nil => rfl
  | cons e es ih => exact ih (l.emit e)

theorem foldl_emit_frame (l : Link R E) (es : List E) :
    (es.foldl Link.emit l).requests = l.requests ∧ (es.foldl Link.emit l).answers = l.answers := by
  induction es generalizing l with
  | nil => exact ⟨rfl, rfl⟩
  | cons e es ih => exact ih (l.emit e)

/-- The server notes the answers that it gives. -/
theorem Barred.note {l : Link R E} (h : Barred replies l) {answers : List (R × List E)} (ha : l.answers ⊆ answers) :
    Barred replies { l with answers } where
  fresh := h.fresh
  once := h.once
  asked := h.asked
  served r hr := (h.served r hr).mono ha List.infix_rfl
  synced := h.synced
  ordered n before hbefore pre hpre r hr := (h.ordered n before hbefore pre hpre r hr).mono ha List.infix_rfl

/-- A request has been answered when the server is done with it. -/
theorem Barred.pop {l : Link R E} {message : Message R} {requests : Fifo (Message R)} (h : Barred replies l)
    (hpop : l.requests.pop = some (message, requests))
    (hanswer : ∀ r, message = .request r → Answered replies l.answers r l.events.sent)
    (hdone : ∀ n, message = .sync n → .done n ∈ l.events.sent) : Barred replies { l with requests } := by
  obtain ⟨-, hsent, -⟩ := Fifo.pop_eq_some.mp hpop
  have htake := take_pop hpop
  refine ⟨fun n hn => ?_, fun n pre pre' hpre hpre' => ?_, fun n hn => ?_, fun r hr => ?_,
    fun n hn => ?_, fun n before hbefore pre hpre => ?_⟩
  · refine h.fresh n ?_
    rwa [← hsent]
  · rw [hsent] at hpre hpre'
    exact h.once n pre pre' hpre hpre'
  · rw [hsent]
    exact h.asked n hn
  · rw [htake] at hr
    rcases List.mem_append.mp hr with hr | hr
    · exact h.served r hr
    · exact hanswer r (List.mem_singleton.mp hr).symm
  · rw [htake] at hn
    rcases List.mem_append.mp hn with hn | hn
    · exact h.synced n hn
    · exact hdone n (List.mem_singleton.mp hn).symm
  · rw [hsent] at hpre
    exact h.ordered n before hbefore pre hpre

/-- A `done` comes when the requests before its `sync` have been answered. -/
theorem Barred.done {l : Link R E} {n : Nat} (h : Barred replies l)
    (hnext : l.requests.sent.take l.requests.taken ++ [.sync n] <+: l.requests.sent) :
    Barred replies { l with events := l.events.push (.done n) } := by
  refine ⟨h.fresh, h.once, fun m hm => ?_, fun r hr => (h.served r hr).append _,
    fun m hm => List.mem_append_left _ (h.synced m hm), fun m before hbefore pre hpre r hr => ?_⟩
  · rcases List.mem_append.mp hm with hm | hm
    · exact h.asked m hm
    · rw [Reply.done.inj (List.mem_singleton.mp hm)]
      exact hnext.subset (List.mem_append_right _ (List.mem_singleton_self _))
  · rcases History.concat_prefix_concat.mp hbefore with ⟨hall, hm⟩ | hbefore
    · obtain rfl := Reply.done.inj hm
      rw [hall]
      refine h.served r ?_
      rwa [← h.once m pre _ hpre hnext]
    · exact h.ordered m before hbefore pre hpre r hr

theorem Barred.serve {l m : Link R E} {es : List E} (h : Barred replies l) (hserve : l.serve replies es = some m) :
    Barred replies m := by
  unfold Link.serve at hserve
  split at hserve
  case h_1 r requests hpop =>
    split at hserve
    case isTrue hes =>
      obtain rfl := Option.some.inj hserve
      obtain ⟨hrequests, hanswers⟩ := foldl_emit_frame l es
      have hnoted : Barred replies { es.foldl Link.emit l with answers := l.answers ++ [(r, es)] } :=
        (h.emits es).note (by rw [hanswers]; exact List.subset_append_left _ _)
      rw [← hrequests] at hpop
      rw [foldl_emit_with]
      refine hnoted.pop hpop (fun r' hr' => ?_) nofun
      obtain rfl := Message.request.inj hr'
      refine ⟨es, hes, List.mem_append_right _ (List.mem_singleton_self _), ?_⟩
      dsimp only
      rw [foldl_emit_sent]
      exact (List.suffix_append _ _).isInfix
    case isFalse => cases hserve
  case h_2 n requests hpop =>
    obtain rfl := Option.some.inj hserve
    have hdone : Barred replies { l with events := l.events.push (.done n) } := by
      refine h.done ?_
      rw [← take_pop hpop, ← (Fifo.pop_eq_some.mp hpop).2.1]
      exact List.take_prefix _ _
    refine hdone.pop hpop nofun fun m hm => ?_
    rw [Message.sync.inj hm]
    exact List.mem_append_right _ (List.mem_singleton_self _)
  case h_3 => cases hserve

theorem Barred.receive {l m : Link R E} {reply : Reply E} (h : Barred replies l) (hreceive : l.receive = some (reply, m)) :
    Barred replies m := by
  unfold Link.receive at hreceive
  split at hreceive
  case h_1 a events hpop =>
    obtain ⟨rfl, rfl⟩ := Prod.mk.inj (Option.some.inj hreceive)
    obtain ⟨-, hsent, -⟩ := Fifo.pop_eq_some.mp hpop
    refine ⟨h.fresh, h.once, fun n hn => h.asked n ?_, fun r hr => ?_, fun n hn => ?_,
      fun n before hbefore => h.ordered n before ?_⟩
    · rwa [← hsent]
    · rw [hsent]
      exact h.served r hr
    · rw [hsent]
      exact h.synced n hn
    · rwa [← hsent]
  case h_2 => cases hreceive

/-- Once a `done` has been received, so have the answers to all requests before its `sync`. -/
theorem Barred.answered {l : Link R E} {n : Nat} {pre : List (Message R)} {r : R} (h : Barred replies l)
    (hpre : pre ++ [.sync n] <+: l.requests.sent) (hdone : .done n ∈ l.received) (hr : .request r ∈ pre) :
    Answered replies l.answers r l.received := by
  obtain ⟨before, after, hsplit⟩ := List.append_of_mem hdone
  have hbefore : before ++ [.done n] <+: l.received := by
    rw [hsplit]
    exact ⟨after, by simp⟩
  have hanswered := h.ordered n before (hbefore.trans (List.take_prefix _ _)) pre hpre r hr
  exact hanswered.mono (List.Subset.refl _) ((List.prefix_append before _).trans hbefore).isInfix

theorem serve_isSome {l : Link R E} (h : l.requests.taken < l.requests.sent.length)
    (hserver : ∀ r, ∃ es, replies r es = true) : ∃ es m, l.serve replies es = some m := by
  obtain ⟨message, requests, hpop⟩ := Fifo.pop_isSome h
  cases message with
  | request r =>
      obtain ⟨es, hes⟩ := hserver r
      refine ⟨es, es.foldl Link.emit { l with requests, answers := l.answers ++ [(r, es)] }, ?_⟩
      simp only [Link.serve, hpop, hes, if_true]
  | sync n =>
      refine ⟨[], { l with requests, events := l.events.push (.done n) }, ?_⟩
      simp only [Link.serve, hpop]

/-- A `done` that has not been received is in one of the queues, or its `sync` still is. -/
theorem Barred.progress {l : Link R E} {n : Nat} (h : Barred replies l) (hsync : .sync n ∈ l.requests.sent)
    (hserver : ∀ r, ∃ es, replies r es = true) :
    .done n ∈ l.received ∨ (∃ es m, l.serve replies es = some m) ∨ ∃ reply m, l.receive = some (reply, m) := by
  by_cases hserved : l.requests.taken < l.requests.sent.length
  · exact Or.inr (Or.inl (serve_isSome hserved hserver))
  · by_cases hreceived : l.events.taken < l.events.sent.length
    · obtain ⟨reply, events, hpop⟩ := Fifo.pop_isSome hreceived
      refine Or.inr (Or.inr ⟨reply, { l with events }, ?_⟩)
      rw [Link.receive, hpop]
    · rw [← List.take_of_length_le (Nat.le_of_not_lt hserved)] at hsync
      have hdone := h.synced n hsync
      rw [← List.take_of_length_le (Nat.le_of_not_lt hreceived)] at hdone
      exact Or.inl hdone

theorem received_emit (l : Link R E) (e : E) : (l.emit e).received = l.received := take_push l.events (.event e)

theorem received_emits (l : Link R E) (es : List E) :
    (es.foldl Link.emit l).received = l.received ∧ (es.foldl Link.emit l).syncs = l.syncs := by
  induction es generalizing l with
  | nil => exact ⟨rfl, rfl⟩
  | cons e es ih =>
      obtain ⟨hreceived, hsyncs⟩ := ih (l.emit e)
      refine ⟨?_, hsyncs⟩
      rw [List.foldl_cons, hreceived, received_emit]

/-- The server neither sends requests nor receives events. -/
theorem received_serve {l m : Link R E} {es : List E} (h : l.serve replies es = some m) :
    m.received = l.received ∧ m.requests.sent = l.requests.sent ∧ m.syncs = l.syncs := by
  unfold Link.serve at h
  split at h
  case h_1 r requests hpop =>
    obtain ⟨-, hsent, -⟩ := Fifo.pop_eq_some.mp hpop
    split at h
    case isTrue =>
      obtain rfl := Option.some.inj h
      refine ⟨(received_emits _ es).1, ?_, (received_emits _ es).2⟩
      rw [(foldl_emit_frame _ _).1, hsent]
    case isFalse => cases h
  case h_2 n requests hpop =>
    obtain ⟨-, hsent, -⟩ := Fifo.pop_eq_some.mp hpop
    obtain rfl := Option.some.inj h
    exact ⟨take_push l.events (.done n), hsent, rfl⟩
  case h_3 => cases h

/-- What the client has received after it takes one more event. -/
theorem received_receive {l m : Link R E} {reply : Reply E} (h : l.receive = some (reply, m)) :
    m.received = l.received ++ [reply] ∧ m.requests = l.requests ∧ m.syncs = l.syncs := by
  unfold Link.receive at h
  split at h
  case h_1 a events hpop =>
    obtain ⟨rfl, rfl⟩ := Prod.mk.inj (Option.some.inj h)
    exact ⟨take_pop hpop, rfl, rfl⟩
  case h_2 => cases h

end Barrier
