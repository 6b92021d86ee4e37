import Wlcs.Client.Output
import Wlcs.Lib.Machine

/-!
# Clipboards

`ExtDataControlClient` of the data control tests keeps one offer, the one that the last `data_offer` event introduced; the
offer before it is destroyed. When an offer is selected, the client asks for its content and waits for the compositor in a
roundtrip, in which further events are dispatched, other selections among them.

The events here have been read from the socket before they are dispatched. libwayland gives a listener no object that
the client has destroyed in between: the argument is then null. (An event that is read only after the offer in it has been
destroyed ends the connection; it is not among these.)

* `Client`, `sink` : the client and what it does as a sink;
* `latest`, `mimeTypes` : the offer introduced last, and what it has announced;
* `selections_answered` : which selections are answered, and when the checks of the handler fail.
-/

namespace Wlcs.DataControl
open EventMachine History

structure DataControlOfferWrapper where
  offer : ProxyPtr
  mimeTypes : List String := []
deriving DecidableEq, Repr

/-- The expectations of `data_control_selection`. -/
inductive Failure
  | noOffer
  | otherOffer (offer id : ProxyPtr)
  | noMimeTypes
deriving DecidableEq, Repr

/-- A call of `ext_data_control_offer_v1_receive` with the source of the pipe. -/
structure Receive where
  offer : ProxyPtr
  mimeType : String
deriving DecidableEq, Repr

structure Client where
  /-- the device has its listener -/
  listening : Bool := false
  sinkCurrentOffer : Option DataControlOfferWrapper := none
  /-- the proxies of offers that libwayland has made, and those of them that are not destroyed -/
  made : List ProxyPtr := []
  alive : List ProxyPtr := []
  /-- the handlers that are in their roundtrip -/
  waiting : Nat := 0
  received : List Receive := []
  /-- the calls of the mocks -/
  offerReceived : Nat := 0
  selectionSet : Nat := 0
  failures : List Failure := []
  /-- a handler has read through a null pointer, or behind the end of a vector -/
  crashed : Bool := false
deriving DecidableEq, Repr

namespace Client

/-- The new wrapper is made before the old one is destroyed. -/
def dataControlDataOffer (self : Client) (id : ProxyPtr) : Client :=
  { self with
    sinkCurrentOffer := some ⟨id, []⟩
    alive := self.alive.filter fun proxy => some proxy ≠ self.sinkCurrentOffer.map (·.offer)
    offerReceived := self.offerReceived + 1 }

def dataOfferOffer (self : Client) (proxy : ProxyPtr) (mimeType : String) : Client :=
  match self.sinkCurrentOffer with
  | some wrapper =>
      if wrapper.offer = proxy then
        { self with sinkCurrentOffer := some ⟨wrapper.offer, wrapper.mimeTypes ++ [mimeType]⟩ }
      else
        self
  | none => self

/-- Up to the roundtrip. None of the expectations is fatal. -/
def dataControlSelection (self : Client) : Option ProxyPtr → Client
  | none => self
  | some id =>
      match self.sinkCurrentOffer with
      | none => { self with failures := self.failures ++ [.noOffer], crashed := true }
      | some wrapper =>
          let self : Client :=
            if wrapper.offer = id then self
            else { self with failures := self.failures ++ [.otherOffer wrapper.offer id] }
          match wrapper.mimeTypes with
          | [] => { self with failures := self.failures ++ [.noMimeTypes], crashed := true }
          | mimeType :: _ =>
              { self with received := self.received ++ [⟨wrapper.offer, mimeType⟩], waiting := self.waiting + 1 }

section Selection
variable {self : Client} {offer : ProxyPtr} {mimeType : String} {rest : List String}

theorem dataControlSelection_of_none (h : self.sinkCurrentOffer = none) (id : ProxyPtr) :
    self.dataControlSelection (some id) =
      { self with failures := self.failures ++ [.noOffer], crashed := true } := by
  rw [dataControlSelection]
  split
  · rfl
  · simp_all

/-- The expectations that fail for an offer with the given MIME types. -/
def failed (offer id : ProxyPtr) (mimeTypes : List String) : List Failure :=
  (if offer = id then [] else [.otherOffer offer id]) ++ if mimeTypes = [] then [.noMimeTypes] else []

theorem dataControlSelection_of_nil (h : self.sinkCurrentOffer = some ⟨offer, []⟩) (id : ProxyPtr) :
    self.dataControlSelection (some id) =
      { self with failures := self.failures ++ failed offer id [], crashed := true } := by
  obtain ⟨listening, current, made, alive, waiting, received, offerReceived, selectionSet, failures, crashed⟩ := self
  obtain rfl : current = some ⟨offer, []⟩ := h
  by_cases hid : offer = id
  · simp [dataControlSelection, failed, hid]
  · simp [dataControlSelection, failed, hid]

theorem dataControlSelection_of_cons (h : self.sinkCurrentOffer = some ⟨offer, mimeType :: rest⟩) (id : ProxyPtr) :
    self.dataControlSelection (some id) =
      { self with
        failures := self.failures ++ failed offer id (mimeType :: rest)
        received := self.received ++ [⟨offer, mimeType⟩]
        waiting := self.waiting + 1 } := by
  obtain ⟨listening, current, made, alive, waiting, received, offerReceived, selectionSet, failures, crashed⟩ := self
  obtain rfl : current = some ⟨offer, mimeType :: rest⟩ := h
  by_cases hid : offer = id
  · simp [dataControlSelection, failed, hid]
  · simp [dataControlSelection, failed, hid]

end Selection

end Client

/-- The events of the device, and those of its offers. -/
inductive Event
  | dataOffer (id : ProxyPtr)
  | offer (proxy : ProxyPtr) (mimeType : String)
  | selection (id : Option ProxyPtr)
  | primarySelection (id : Option ProxyPtr)
  | finished
deriving DecidableEq, Repr

inductive Action
  | asSink
  | event (e : Event)
  /-- the roundtrip of the innermost handler is over -/
  | roundtripOver
deriving DecidableEq, Repr

namespace Client

/-- The object that a listener is given for an argument. -/
def resolve (self : Client) (id : Option ProxyPtr) : Option ProxyPtr := id.filter (· ∈ self.alive)

/-- What libwayland does with an event. Without a listener it is dropped, but its new object is there. -/
def dispatch (self : Client) : Event → Client
  | .dataOffer id =>
      let self : Client := if self.listening then self.dataControlDataOffer id else self
      { self with made := self.made ++ [id], alive := self.alive ++ [id] }
  | .offer proxy mimeType => if proxy ∈ self.alive then self.dataOfferOffer proxy mimeType else self
  | .selection id | .primarySelection id =>
      if self.listening then self.dataControlSelection (self.resolve id) else self
  | .finished => self

/-- New objects are new, and others are known. -/
def accepts (self : Client) : Event → Bool
  | .dataOffer id => id ∉ self.made
  | .offer proxy _ => proxy ∈ self.made
  | .selection id | .primarySelection id => id.all (· ∈ self.made)
  | .finished => true

end Client

def sink : Guarded Client Action where
  step self
    | .asSink => if self.crashed then none else some { self with listening := true }
    | .event e => if self.crashed ∨ ¬ self.accepts e then none else some (self.dispatch e)
    | .roundtripOver =>
        if self.crashed ∨ self.waiting = 0 then none
        else some { self with waiting := self.waiting - 1, selectionSet := self.selectionSet + 1 }

/-! ## The offers of a history -/

def Action.introduced? : Action → Option ProxyPtr
  | .event (.dataOffer id) => some id
  | _ => none

/-- The offers that have been introduced. -/
def introduced (as : List Action) : List ProxyPtr := as.filterMap Action.introduced?

/-- The offer that was introduced last. -/
def latest (as : List Action) : Option ProxyPtr := lastSome Action.introduced? as

def Action.introduces (a : Action) : Bool := a.introduced?.isSome

def Action.announced? (id : Option ProxyPtr) : Action → Option String
  | .event (.offer proxy mimeType) => if some proxy = id then some mimeType else none
  | _ => none

/-- What the offer that was introduced last has announced since. -/
def mimeTypes (as : List Action) : List String :=
  (openGroup Action.introduces as).filterMap (Action.announced? (latest as))

def Action.selected? : Action → Option ProxyPtr
  | .event (.selection id) | .event (.primarySelection id) => id
  | _ => none

/-- What is asked for after a selection: the first MIME type of the latest offer, unless the selected one is destroyed.
`unheard` are the offers that were introduced before there was a listener; nobody destroys them. -/
def request (unheard : List ProxyPtr) (as : List Action) (a : Action) : Option Receive :=
  a.selected?.bind fun id =>
    if id ∈ unheard ∨ latest as = some id then
      (latest as).bind fun offer => (mimeTypes as).head?.map fun mimeType => ⟨offer, mimeType⟩
    else
      none

/-- A selection that the handler does not expect: of an offer it has not heard of, or of one that has nothing to offer. -/
def Unexpected (unheard : List ProxyPtr) (as : List Action) (a : Action) : Prop :=
  ∃ id, a.selected? = some id ∧ (id ∈ unheard ∨ latest as = some id ∧ mimeTypes as = [])

theorem latest_concat (as : List Action) (a : Action) : latest (as ++ [a]) = a.introduced?.or (latest as) :=
  lastSome_concat _ _ _

theorem introduced_concat (as : List Action) (a : Action) :
    introduced (as ++ [a]) = introduced as ++ a.introduced?.toList := by
  rw [introduced, List.filterMap_append]
  cases h : a.introduced? with
  | none => rw [List.filterMap_cons_none h]; rfl
  | some id => rw [List.filterMap_cons_some h]; rfl

theorem mimeTypes_concat (as : List Action) (a : Action) :
    mimeTypes (as ++ [a]) =
      if a.introduces then [] else mimeTypes as ++ (a.announced? (latest as)).toList := by
  rw [mimeTypes, openGroup_concat]
  split
  · rfl
  · rename_i hold
    have hnone : a.introduced? = none := by simpa [Action.introduces] using hold
    rw [latest_concat, hnone, Option.none_or, List.filterMap_append]
    rfl

/-! ## What the client knows -/

/-- The client after the actions since it has its listener. -/
structure Hears (unheard : List ProxyPtr) (as : List Action) (s : Client) : Prop where
  listening : s.listening = true
  current : s.sinkCurrentOffer = (latest as).map fun id => ⟨id, mimeTypes as⟩
  alive : ∀ id, id ∈ s.alive ↔ id ∈ unheard ∨ latest as = some id
  made : s.made = unheard ++ introduced as
  fresh : ∀ id, latest as = some id → id ∉ unheard
  received : s.received = collect (request unheard) as
  failures : s.failures = [] ↔ ∀ pre a, pre ++ [a] <+: as → ¬ Unexpected unheard pre a
  counted : s.selectionSet + s.waiting = s.received.length

section Steps
variable {unheard : List ProxyPtr} {as : List Action} {s : Client} {a : Action}

theorem request_of_not_selected (h : a.selected? = none) : request unheard as a = none := by
  rw [request, h]
  rfl

theorem not_unexpected_of_not_selected (h : a.selected? = none) : ¬ Unexpected unheard as a := by
  rintro ⟨id, hid, -⟩
  rw [h] at hid
  contradiction

/-- What the trace says does not change with an action that selects nothing. -/
theorem Hears.collected (h : Hears unheard as s) (ha : a.selected? = none) :
    s.received = collect (request unheard) (as ++ [a]) ∧
      (s.failures = [] ↔ ∀ pre x, pre ++ [x] <+: as ++ [a] → ¬ Unexpected unheard pre x) := by
  constructor
  · rw [collect_concat, request_of_not_selected ha, h.received]
    exact (List.append_nil _).symm
  · rw [forall_concat_concat, h.failures]
    exact (and_iff_left (not_unexpected_of_not_selected ha)).symm

theorem Hears.offer_eq (h : Hears unheard as s) : s.sinkCurrentOffer.map (·.offer) = latest as := by
  rw [h.current, Option.map_map]
  exact Option.map_id'

/-- Each new offer takes the place of the one before. -/
theorem Hears.dataOffer (h : Hears unheard as s) {id : ProxyPtr} (hnew : id ∉ s.made) :
    Hears unheard (as ++ [.event (.dataOffer id)]) (s.dispatch (.dataOffer id)) := by
  have hlatest : latest (as ++ [.event (.dataOffer id)]) = some id := latest_concat _ _
  have hmime : mimeTypes (as ++ [.event (.dataOffer id)]) = [] := mimeTypes_concat _ _
  obtain ⟨hreceived, hfailures⟩ := h.collected (a := .event (.dataOffer id)) rfl
  rw [h.made, List.mem_append, not_or] at hnew
  simp only [Client.dispatch, if_pos h.listening]
  refine ⟨h.listening, ?_, ?_, ?_, ?_, hreceived, hfailures, h.counted⟩
  · rw [hlatest, hmime]
    rfl
  · intro proxy
    simp only [Client.dataControlDataOffer, h.offer_eq, hlatest, List.mem_append, List.mem_filter, h.alive,
      List.mem_singleton, Option.some.injEq, decide_eq_true_eq]
    constructor
    · rintro (⟨hunheard | hold, hne⟩ | rfl)
      · exact Or.inl hunheard
      · exact absurd hold.symm hne
      · exact Or.inr rfl
    · rintro (hunheard | rfl)
      · exact Or.inl ⟨Or.inl hunheard, fun hold => h.fresh proxy hold.symm hunheard⟩
      · exact Or.inr rfl
  · show s.made ++ [id] = _
    rw [h.made, introduced_concat, List.append_assoc]
    rfl
  · intro other hother
    rw [hlatest, Option.some.injEq] at hother
    exact hother ▸ hnew.1

/-- An action that tells nothing of the latest offer leaves the offers as they are. -/
theorem Hears.keep (h : Hears unheard as s) {t : Client} (hintroduced : a.introduced? = none)
    (hannounced : a.announced? (latest as) = none) (hlistening : t.listening = s.listening)
    (hcurrent : t.sinkCurrentOffer = s.sinkCurrentOffer) (halive : t.alive = s.alive) (hmade : t.made = s.made)
    (hreceived : t.received = collect (request unheard) (as ++ [a]))
    (hfailures : t.failures = [] ↔ ∀ pre x, pre ++ [x] <+: as ++ [a] → ¬ Unexpected unheard pre x)
    (hcounted : t.selectionSet + t.waiting = t.received.length) : Hears unheard (as ++ [a]) t := by
  have hlatest : latest (as ++ [a]) = latest as := by rw [latest_concat, hintroduced, Option.none_or]
  have hmime : mimeTypes (as ++ [a]) = mimeTypes as := by
    rw [mimeTypes_concat, hannounced, Action.introduces, hintroduced]
    exact List.append_nil _
  refine ⟨hlistening.trans h.listening, ?_, ?_, ?_, ?_, hreceived, hfailures, hcounted⟩
  · rw [hcurrent, hlatest, hmime, h.current]
  · rw [halive, hlatest]
    exact h.alive
  · rw [hmade, introduced_concat, hintroduced, h.made]
    exact (congrArg _ (List.append_nil _)).symm
  · rw [hlatest]
    exact h.fresh

theorem Hears.offer (h : Hears unheard as s) (proxy : ProxyPtr) (mimeType : String) :
    Hears unheard (as ++ [.event (.offer proxy mimeType)]) (s.dispatch (.offer proxy mimeType)) := by
  obtain ⟨hreceived, hfailures⟩ := h.collected (a := .event (.offer proxy mimeType)) rfl
  by_cases hlatest : latest as = some proxy
  · have halive : proxy ∈ s.alive := (h.alive proxy).mpr (Or.inr hlatest)
    have hoffer : s.sinkCurrentOffer = some ⟨proxy, mimeTypes as⟩ := by
      rw [h.current, hlatest]
      rfl
    have hlatest' : latest (as ++ [.event (.offer proxy mimeType)]) = latest as := latest_concat _ _
    have hmime : mimeTypes (as ++ [.event (.offer proxy mimeType)]) = mimeTypes as ++ [mimeType] := by
      rw [mimeTypes_concat, hlatest]
      simp [Action.introduces, Action.introduced?, Action.announced?]
    simp only [Client.dispatch, if_pos halive, Client.dataOfferOffer, hoffer, if_true]
    refine ⟨h.listening, ?_, ?_, ?_, ?_, hreceived, hfailures, h.counted⟩
    · rw [hlatest', hlatest, hmime]
      rfl
    · rw [hlatest']
      exact h.alive
    · rw [introduced_concat]
      exact h.made.trans (congrArg _ (List.append_nil _).symm)
    · rw [hlatest']
      exact h.fresh
  · have hsame : s.dispatch (.offer proxy mimeType) = s := by
      have hother : s.dataOfferOffer proxy mimeType = s := by
        rw [Client.dataOfferOffer, h.current]
        cases hid : latest as with
        | none => rfl
        | some id => exact if_neg fun heq => hlatest (hid.trans (congrArg some heq))
      rw [Client.dispatch, hother, ite_self]
    rw [hsame]
    exact h.keep rfl (if_neg fun heq => hlatest heq.symm) rfl rfl rfl rfl hreceived hfailures h.counted

/-- The handler is given the object of a selection only if it is not destroyed. -/
theorem Hears.resolve (h : Hears unheard as s) (id : ProxyPtr) :
    s.resolve (some id) = if id ∈ unheard ∨ latest as = some id then some id else none := by
  rw [Client.resolve, Option.filter_some]
  simp only [decide_eq_true_eq, h.alive]

/-- A selection whose offer the handler is given. -/
theorem Hears.selected (h : Hears unheard as s) {id : ProxyPtr} (ha : a.introduced? = none)
    (ha' : a.announced? (latest as) = none) (hgiven : id ∈ unheard ∨ latest as = some id)
    (hunexpected : Unexpected unheard as a ↔ id ∈ unheard ∨ latest as = some id ∧ mimeTypes as = [])
    (hrequest : request unheard as a =
      (latest as).bind fun offer => (mimeTypes as).head?.map fun mimeType => ⟨offer, mimeType⟩) :
    Hears unheard (as ++ [a]) (s.dataControlSelection (some id)) := by
  have hcollect : collect (request unheard) (as ++ [a]) = s.received ++ (request unheard as a).toList := by
    rw [collect_concat, h.received]
  have hfailed : s.failures = [] ∧ ¬ Unexpected unheard as a ↔
      ∀ pre x, pre ++ [x] <+: as ++ [a] → ¬ Unexpected unheard pre x := by
    rw [forall_concat_concat, h.failures]
  cases hlatest : latest as with
  | none =>
      have hcurrent : s.sinkCurrentOffer = none := by rw [h.current, hlatest]; rfl
      have hbad : Unexpected unheard as a := by
        rw [hlatest] at hgiven
        exact hunexpected.mpr (Or.inl (hgiven.resolve_right (by simp)))
      rw [Client.dataControlSelection_of_none hcurrent]
      refine h.keep ha ha' rfl rfl rfl rfl ?_ ?_ h.counted
      · rw [hcollect, hrequest, hlatest]
        exact (List.append_nil _).symm
      · rw [← hfailed]
        simp [hbad]
  | some offer =>
      -- the check of the object and the check of the MIME types fail exactly for what is unexpected
      have hchecks : Client.failed offer id (mimeTypes as) = [] ↔ ¬ Unexpected unheard as a := by
        have hfresh := h.fresh offer hlatest
        rw [hlatest, Option.some.injEq] at hgiven
        rw [hunexpected, hlatest, Option.some.injEq, Client.failed]
        by_cases hid : offer = id
        · subst hid
          by_cases hmime : mimeTypes as = []
          · simp [hmime]
          · simp [hmime, hfresh]
        · simp [hid, hgiven.resolve_right hid]
      have hcurrent : s.sinkCurrentOffer = some ⟨offer, mimeTypes as⟩ := by rw [h.current, hlatest]; rfl
      have hfailures : s.failures ++ Client.failed offer id (mimeTypes as) = [] ↔
          ∀ pre x, pre ++ [x] <+: as ++ [a] → ¬ Unexpected unheard pre x := by
        rw [← hfailed, List.append_eq_nil_iff, hchecks]
      cases hmime : mimeTypes as with
      | nil =>
          rw [hmime] at hcurrent hfailures
          rw [Client.dataControlSelection_of_nil hcurrent]
          refine h.keep ha ha' rfl rfl rfl rfl ?_ hfailures h.counted
          rw [hcollect, hrequest, hlatest, hmime]
          exact (List.append_nil _).symm
      | cons mimeType rest =>
          rw [hmime] at hcurrent hfailures
          rw [Client.dataControlSelection_of_cons hcurrent]
          refine h.keep ha ha' rfl rfl rfl rfl ?_ hfailures ?_
          · rw [hcollect, hrequest, hlatest, hmime]
            rfl
          · have hcounted := h.counted
            simp only [List.length_append, List.length_singleton]
            omega

theorem Hears.selection (h : Hears unheard as s) (ha : a.introduced? = none) (ha' : ∀ id, a.announced? id = none) :
    Hears unheard (as ++ [a]) (s.dataControlSelection (s.resolve a.selected?)) := by
  cases hselected : a.selected? with
  | none =>
      obtain ⟨hreceived, hfailures⟩ := h.collected hselected
      exact h.keep ha (ha' _) rfl rfl rfl rfl hreceived hfailures h.counted
  | some id =>
      have hunexpected : Unexpected unheard as a ↔ id ∈ unheard ∨ latest as = some id ∧ mimeTypes as = [] := by
        simp only [Unexpected, hselected, Option.some.injEq, exists_eq_left']
      have hrequest : request unheard as a =
          if id ∈ unheard ∨ latest as = some id then
            (latest as).bind fun offer => (mimeTypes as).head?.map fun mimeType => ⟨offer, mimeType⟩
          else none := by
        rw [request, hselected, Option.bind_some]
      rw [h.resolve]
      by_cases hgiven : id ∈ unheard ∨ latest as = some id
      · rw [if_pos hgiven]
        rw [if_pos hgiven] at hrequest
        exact h.selected ha (ha' _) hgiven hunexpected hrequest
      · -- the offer is destroyed, and the handler returns at once
        rw [if_neg hgiven]
        rw [if_neg hgiven] at hrequest
        show Hears unheard (as ++ [a]) s
        refine h.keep ha (ha' _) rfl rfl rfl rfl ?_ ?_ h.counted
        · rw [collect_concat, hrequest, h.received]
          exact (List.append_nil _).symm
        · rw [forall_concat_concat, h.failures, hunexpected]
          refine (and_iff_left fun hbad => hgiven ?_).symm
          exact hbad.imp_right And.left

/-- One more action of a client that has its listener. -/
theorem Hears.step (h : Hears unheard as s) {t : Client} (hstep : sink.step s a = some t) :
    Hears unheard (as ++ [a]) t := by
  cases a with
  | asSink =>
      obtain ⟨-, ht⟩ := Option.ite_none_left_eq_some.mp hstep
      obtain rfl := Option.some.inj ht
      obtain ⟨hreceived, hfailures⟩ := h.collected (a := .asSink) rfl
      exact h.keep rfl rfl h.listening.symm rfl rfl rfl hreceived hfailures h.counted
  | event e =>
      obtain ⟨hnot, ht⟩ := Option.ite_none_left_eq_some.mp hstep
      obtain rfl := Option.some.inj ht
      obtain ⟨-, haccepts⟩ := not_or.mp hnot
      cases e with
      | dataOffer id => exact h.dataOffer (by simpa [Client.accepts] using haccepts)
      | offer proxy mimeType => exact h.offer proxy mimeType
      | selection id =>
          rw [Client.dispatch, if_pos h.listening]
          exact h.selection (a := .event (.selection id)) rfl fun _ => rfl
      | primarySelection id =>
          rw [Client.dispatch, if_pos h.listening]
          exact h.selection (a := .event (.primarySelection id)) rfl fun _ => rfl
      | finished =>
          obtain ⟨hreceived, hfailures⟩ := h.collected (a := .event .finished) rfl
          exact h.keep rfl rfl rfl rfl rfl rfl hreceived hfailures h.counted
  | roundtripOver =>
      obtain ⟨hnot, ht⟩ := Option.ite_none_left_eq_some.mp hstep
      obtain rfl := Option.some.inj ht
      obtain ⟨-, hwaiting⟩ := not_or.mp hnot
      obtain ⟨hreceived, hfailures⟩ := h.collected (a := .roundtripOver) rfl
      have hcounted := h.counted
      refine h.keep rfl rfl rfl rfl rfl rfl hreceived hfailures ?_
      show s.selectionSet + 1 + (s.waiting - 1) = s.received.length
      omega

end Steps

/-- Before it has its listener the client hears nothing. -/
structure Deaf (as : List Action) (s : Client) : Prop where
  listening : s.listening = false
  current : s.sinkCurrentOffer = none
  made : s.made = introduced as
  alive : s.alive = introduced as
  received : s.received = []
  failures : s.failures = []
  counted : s.selectionSet + s.waiting = 0

theorem Deaf.keep {as : List Action} {a : Action} {s : Client} (h : Deaf as s) (ha : a.introduced? = none) :
    Deaf (as ++ [a]) s := by
  have hsame : introduced (as ++ [a]) = introduced as := by
    rw [introduced_concat, ha]
    exact List.append_nil _
  exact ⟨h.listening, h.current, hsame ▸ h.made, hsame ▸ h.alive, h.received, h.failures, h.counted⟩

theorem deaf_of_exec {as : List Action} {s : Client} (has : .asSink ∉ as) (h : sink.exec {} as = some s) : Deaf as s := by
  induction as using List.reverseRecOn generalizing s with
  | nil =>
      obtain rfl := Option.some.inj h
      exact ⟨rfl, rfl, rfl, rfl, rfl, rfl, rfl⟩
  | append_singleton as a ih =>
      obtain ⟨u, hu, hstep⟩ := sink.exec_concat_eq_some h
      rw [List.mem_append, List.mem_singleton, not_or] at has
      have hdeaf := ih has.1 hu
      cases a with
      | asSink => exact absurd rfl has.2
      | roundtripOver =>
          obtain ⟨hnot, -⟩ := Option.ite_none_left_eq_some.mp hstep
          have := hdeaf.counted
          omega
      | event e =>
          obtain ⟨-, ht⟩ := Option.ite_none_left_eq_some.mp hstep
          obtain rfl := Option.some.inj ht
          have hdropped : ∀ i : Option ProxyPtr,
              (if u.listening then u.dataControlSelection (u.resolve i) else u) = u := by
            intro i
            rw [hdeaf.listening]
            rfl
          cases e with
          | dataOffer id =>
              rw [Client.dispatch, hdeaf.listening, if_neg Bool.false_ne_true]
              refine ⟨hdeaf.listening, hdeaf.current, ?_, ?_, hdeaf.received, hdeaf.failures, hdeaf.counted⟩
              · rw [introduced_concat, ← hdeaf.made]
                rfl
              · rw [introduced_concat, ← hdeaf.alive]
                rfl
          | offer proxy mimeType =>
              have hsame : u.dispatch (.offer proxy mimeType) = u := by
                rw [Client.dispatch, Client.dataOfferOffer, hdeaf.current, ite_self]
              rw [hsame]
              exact hdeaf.keep rfl
          | selection i =>
              rw [Client.dispatch, hdropped]
              exact hdeaf.keep rfl
          | primarySelection i =>
              rw [Client.dispatch, hdropped]
              exact hdeaf.keep rfl
          | finished => exact hdeaf.keep rfl

/-- **The selections that are answered** are those of the offer that was introduced last: an offer that another one has
followed is destroyed, and its selection goes unnoticed. Each answer asks for the first MIME type that the offer has
announced, and is confirmed when its roundtrip is over, however the handlers are nested. An expectation fails exactly if
an offer is selected that was introduced before the client had its listener, or that has announced nothing. -/
theorem selections_answered {before after : List Action} {s : Client} (hbefore : .asSink ∉ before)
    (h : sink.exec {} (before ++ .asSink :: after) = some s) :
    s.received = collect (request (introduced before)) after ∧
      (s.failures = [] ↔ ∀ pre a, pre ++ [a] <+: after → ¬ Unexpected (introduced before) pre a) ∧
      s.selectionSet + s.waiting = s.received.length := by
  rw [sink.exec_append] at h
  obtain ⟨u, hu, h⟩ := Option.bind_eq_some_iff.mp h
  obtain ⟨v, hv, h⟩ := Option.bind_eq_some_iff.mp h
  have hdeaf := deaf_of_exec hbefore hu
  have hstart : Hears (introduced before) [] v := by
    obtain ⟨-, ht⟩ := Option.ite_none_left_eq_some.mp hv
    obtain rfl := Option.some.inj ht
    refine ⟨rfl, hdeaf.current, ?_, ?_, ?_, hdeaf.received, ?_, ?_⟩
    · intro id
      show id ∈ u.alive ↔ _
      rw [hdeaf.alive]
      simp [latest]
    · exact hdeaf.made.trans (List.append_nil _).symm
    · intro id hid
      contradiction
    · refine iff_of_true hdeaf.failures fun pre a hp => ?_
      simpa using hp.length_le
    · show u.selectionSet + u.waiting = u.received.length
      rw [hdeaf.counted, hdeaf.received]
      rfl
  have hears : Hears (introduced before) after s :=
    sink.exec_induction (P := Hears (introduced before)) hstart (fun as w a t _ hw hstep => hw.step hstep) after s h
  exact ⟨hears.received, hears.failures, hears.counted⟩

/-- Two offers, for the clipboard and the primary selection, are introduced before either is selected. -/
def overtaken : List Action :=
  [.event (.dataOffer 1), .event (.offer 1 "text/plain"), .event (.dataOffer 2), .event (.offer 2 "text/html"),
    .event (.selection (some 1)), .event (.primarySelection (some 2)), .roundtripOver]

theorem selections_answered_overtaken :
    (∃ s, sink.exec {} ([] ++ .asSink :: overtaken) = some s ∧ s.failures = [] ∧ s.selectionSet = 1 ∧
      s.received = collect (request (introduced [])) overtaken) ∧
      collect (request (introduced [])) overtaken = [⟨2, "text/html"⟩] := by
  refine ⟨?_, by decide⟩
  have hrun : sink.exec {} ([] ++ .asSink :: overtaken) = some
      { listening := true, sinkCurrentOffer := some ⟨2, ["text/html"]⟩, made := [1, 2], alive := [2], waiting := 0,
        received := [⟨2, "text/html"⟩], offerReceived := 2, selectionSet := 1, failures := [], crashed := false } := by
    decide
  exact ⟨_, hrun, rfl, rfl, (selections_answered List.not_mem_nil hrun).1⟩

end Wlcs.DataControl
