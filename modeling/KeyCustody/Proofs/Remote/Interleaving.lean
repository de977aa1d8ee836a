import KeyCustody.Proofs.Remote.Signing
import KeyCustody.Proofs.Session
import Mathlib.Data.List.Nodup
import Mathlib.Data.List.Perm.Basic
import Mathlib.Logic.Relation

/-!
# Signatures asked for side by side

Calls that sign with services may be under way at the same time, also through the same connector,
and each exchange with a service may come from any of them. An exchange may have any answer. A
client is known by the number of exchanges before it was opened, so that no two are known by the
same.

A call looks at its own answers alone. So its course is that of a call by itself, however the others
go on meanwhile, and it holds a client from the moment it has opened one until it lets go of it.

## Main definitions

* `Exchange` — a contact with a service, and the answer
* `Interleaving.Call`, `Interleaving.State` — a call under way, and calls side by side
* `Interleaving.Call.Step`, `Interleaving.State.Step` — one exchange
* `Interleaving.course`, `Interleaving.outcome` — all exchanges of a call, and what it comes to
* `Interleaving.Stage` — how far a call has come

## Main results

* `Interleaving.Stage.step` — what an exchange does to the call that has it
* `Interleaving.Orderly.step`, `Interleaving.orderly_of_reaches` — one exchange and many
* `Interleaving.clients_of_interleaving` — the calls and their clients, whatever the order
-/

namespace KeyCustody

/-- A contact with a service, and the answer. -/
inductive Exchange
  | connect (connector : ConnectorId) (answer : Except String Unit)
  | request (connector : ConnectorId) (content : SignRequest) (answer : Except String Octets)
  | lookup (connector : ConnectorId) (keyId : String) (answer : Except String Bool)
  | release (connector : ConnectorId)

/-- The contact. -/
def Exchange.contact : Exchange → Contact
  | connect c _ => .connected c
  | request c content _ => .requested c content
  | lookup c keyId _ => .lookedUp c keyId
  | release c => .released c

namespace Interleaving

open scoped List

/-! ## Calls side by side -/

/-- A call under way: what is left of its dialogue, and the client that it holds. -/
structure Call where
  rest : Dialogue (Except KeyError Octets)
  client : Option Nat

/-- An exchange that took place: the call that had it, and the client. -/
structure Event where
  call : Nat
  client : Option Nat
  exchange : Exchange

/-- The next exchange of a call, where a client that it opens gets the given number. Only a call
without a client opens one, and only with a client can it do anything else. -/
inductive Call.Step (fresh : Nat) : Call → Option Nat → Exchange → Call → Prop
  | opened (c : ConnectorId) (next : Except String Unit → Dialogue (Except KeyError Octets)) :
    Step fresh ⟨.connect c next, none⟩ (some fresh) (.connect c (.ok ()))
      ⟨next (.ok ()), some fresh⟩
  | refused (c : ConnectorId) (next : Except String Unit → Dialogue (Except KeyError Octets))
      (text : String) :
    Step fresh ⟨.connect c next, none⟩ none (.connect c (.error text)) ⟨next (.error text), none⟩
  | requested (c : ConnectorId) (content : SignRequest)
      (next : Except String Octets → Dialogue (Except KeyError Octets))
      (answer : Except String Octets) (n : Nat) :
    Step fresh ⟨.request c content next, some n⟩ (some n) (.request c content answer)
      ⟨next answer, some n⟩
  | lookedUp (c : ConnectorId) (keyId : String)
      (next : Except String Bool → Dialogue (Except KeyError Octets))
      (answer : Except String Bool) (n : Nat) :
    Step fresh ⟨.lookup c keyId next, some n⟩ (some n) (.lookup c keyId answer)
      ⟨next answer, some n⟩
  | released (c : ConnectorId) (next : Dialogue (Except KeyError Octets)) (n : Nat) :
    Step fresh ⟨.release c next, some n⟩ (some n) (.release c) ⟨next, none⟩

/-- Calls by place, and the exchanges they have had, in order. -/
structure State where
  calls : List Call
  history : List Event

/-- Calls that sign messages, before the first exchange. -/
def State.start (draw : Entropy) (signings : List (ServiceSigner × Octets)) : State :=
  ⟨signings.map fun e => ⟨e.1.toSigner.sign draw e.2, none⟩, []⟩

/-- One of the calls has its next exchange. -/
inductive State.Step : State → State → Prop
  | exchange {s : State} {i : Nat} {call call' : Call} {client : Option Nat} {e : Exchange} :
    s.calls[i]? = some call → call.Step s.history.length client e call' →
    Step s ⟨s.calls.set i call', s.history ++ [⟨i, client, e⟩]⟩

/-- Some number of exchanges take place. -/
def State.Reaches : State → State → Prop := Relation.ReflTransGen State.Step

/-! ## What is to be seen in a history -/

/-- The client that an event opens. -/
def Event.opens (e : Event) : Option Nat :=
  match e.exchange with
  | .connect _ (.ok ()) => e.client
  | _ => none

/-- The client that an event lets go of. -/
def Event.releases (e : Event) : Option Nat :=
  match e.exchange with
  | .release _ => e.client
  | _ => none

/-- The clients that were opened, in order. -/
def opened (history : List Event) : List Nat := history.filterMap Event.opens

/-- The clients that were let go of, in order. -/
def released (history : List Event) : List Nat := history.filterMap Event.releases

/-- The clients that calls under way hold. -/
def held (calls : List Call) : List Nat := calls.filterMap (·.client)

/-- The events of a call. -/
def own (i : Nat) (history : List Event) : List Event := history.filter (·.call = i)

/-- The events that a client has a part in. -/
def ofClient (n : Nat) (history : List Event) : List Event := history.filter (·.client = some n)

/-- All that a call does to sign a message, by the answers that it gets and the number of its
client. -/
def course (v : ServiceSigner) (message : Octets) (i n : Nat) (opening : Except String Unit)
    (answer : Except String Octets) : List Event :=
  match opening with
  | .error text => [⟨i, none, .connect v.connector (.error text)⟩]
  | .ok () => [⟨i, some n, .connect v.connector (.ok ())⟩,
      ⟨i, some n, .request v.connector (v.request message) answer⟩,
      ⟨i, some n, .release v.connector⟩]

/-- What a call comes to, by the answers that it gets. -/
def outcome (v : ServiceSigner) (opening : Except String Unit) (answer : Except String Octets) :
    Except KeyError Octets :=
  match opening, answer with
  | .error text, _ => .error (.backendInit v.kmsType.name (.reported text))
  | .ok (), .error text => .error (.signing v.kmsType.name (.reported text))
  | .ok (), .ok signature => .ok signature

theorem Event.client_of_opens {event : Event} {n : Nat} (h : event.opens = some n) :
    event.client = some n := by
  unfold Event.opens at h
  split at h
  · exact h
  · cases h

/-! ## One call -/

variable {v : ServiceSigner} {message : Octets} {i j fresh : Nat} {call call' : Call}
  {client : Option Nat} {e : Exchange} {events history : List Event} {calls : List Call}

/-- What is left of a call with a client. -/
def afterOpening (v : ServiceSigner) (message : Octets) : Dialogue (Except KeyError Octets) :=
  .request v.connector (v.request message) fun answer =>
    .release v.connector (.done (outcome v (.ok ()) answer))

/-- How far a call has come that signs a message, by what is left of it and its events. -/
inductive Stage (v : ServiceSigner) (message : Octets) (i : Nat) : Call → List Event → Prop
  | waiting : Stage v message i ⟨.connect v.connector fun
      | .error text => .done (outcome v (.error text) (.ok []))
      | .ok () => afterOpening v message, none⟩ []
  | refused (text : String) : Stage v message i
      ⟨.done (outcome v (.error text) (.ok [])), none⟩
      [⟨i, none, .connect v.connector (.error text)⟩]
  | opened (n : Nat) : Stage v message i ⟨afterOpening v message, some n⟩
      [⟨i, some n, .connect v.connector (.ok ())⟩]
  | answered (n : Nat) (answer : Except String Octets) : Stage v message i
      ⟨.release v.connector (.done (outcome v (.ok ()) answer)), some n⟩
      [⟨i, some n, .connect v.connector (.ok ())⟩,
        ⟨i, some n, .request v.connector (v.request message) answer⟩]
  | finished (n : Nat) (answer : Except String Octets) : Stage v message i
      ⟨.done (outcome v (.ok ()) answer), none⟩
      [⟨i, some n, .connect v.connector (.ok ())⟩,
        ⟨i, some n, .request v.connector (v.request message) answer⟩,
        ⟨i, some n, .release v.connector⟩]

theorem Stage.start (v : ServiceSigner) (message : Octets) (draw : Entropy) (i : Nat) :
    Stage v message i ⟨v.toSigner.sign draw message, none⟩ [] := by
  have hafter : afterOpening v message = .request v.connector (v.request message) fun answer =>
      .release v.connector (.done (Dialogue.answered v.kmsType answer)) := by
    rw [afterOpening]
    congr 1
    funext answer
    cases answer <;> rfl
  have hsign : v.toSigner.sign draw message = .connect v.connector fun
      | .error text => .done (outcome v (.error text) (.ok []))
      | .ok () => afterOpening v message := by
    rw [v.sign_toSigner, hafter]
    exact congrArg (Dialogue.connect v.connector) (funext fun opening => by cases opening <;> rfl)
  rw [hsign]
  exact .waiting

/-- An exchange takes a call from one stage to the next. -/
theorem Stage.step (h : Stage v message i call events) (hstep : call.Step fresh client e call') :
    Stage v message i call' (events ++ [⟨i, client, e⟩]) := by
  cases h with
  | waiting =>
    cases hstep with
    | opened => exact .opened fresh
    | refused c next text => exact .refused text
  | refused text => cases hstep
  | opened n =>
    cases hstep with
    | requested c content next answer n => exact .answered n answer
  | answered n answer =>
    cases hstep with
    | released c next n => exact .finished n answer
  | finished n answer => cases hstep

/-- A call either is over or has a next exchange. -/
theorem Stage.over_or_step (h : Stage v message i call events) (fresh : Nat) :
    (∃ result, call.rest = .done result) ∨ ∃ client e call', call.Step fresh client e call' := by
  cases h with
  | waiting => exact .inr ⟨_, _, _, .opened _ _⟩
  | refused text => exact .inl ⟨_, rfl⟩
  | opened n => exact .inr ⟨_, _, _, .requested _ _ _ (.ok []) n⟩
  | answered n answer => exact .inr ⟨_, _, _, .released _ _ n⟩
  | finished n answer => exact .inl ⟨_, rfl⟩

/-- A call is somewhere on its course, and it has come to an outcome at the end and nowhere else. -/
theorem Stage.exists_course (h : Stage v message i call events) : ∃ n opening answer,
    events <+: course v message i n opening answer ∧
    ∀ result, call.rest = .done result ↔
      events = course v message i n opening answer ∧ result = outcome v opening answer := by
  cases h with
  | waiting => exact ⟨0, .ok (), .ok [], List.nil_prefix, fun _ => iff_of_false nofun nofun⟩
  | refused text =>
    refine ⟨0, .error text, .ok [], List.prefix_rfl, fun result => ?_⟩
    exact ⟨fun h => ⟨rfl, (Dialogue.done.inj h).symm⟩, fun h => congrArg _ h.2.symm⟩
  | opened n =>
    exact ⟨n, .ok (), .ok [], List.prefix_append _ _, fun _ => iff_of_false nofun nofun⟩
  | answered n answer =>
    exact ⟨n, .ok (), answer, List.prefix_append _ _, fun _ => iff_of_false nofun nofun⟩
  | finished n answer =>
    refine ⟨n, .ok (), answer, List.prefix_rfl, fun result => ?_⟩
    exact ⟨fun h => ⟨rfl, (Dialogue.done.inj h).symm⟩, fun h => congrArg _ h.2.symm⟩

/-- The client that is opened in an exchange and the one that is held before are the one that is let
go of and the one that is held afterwards. -/
theorem Call.Step.account (h : call.Step fresh client e call') :
    (Event.opens ⟨i, client, e⟩).toList ++ call.client.toList =
      (Event.releases ⟨i, client, e⟩).toList ++ call'.client.toList := by
  cases h <;> rfl

/-- A client that has a part in an exchange is opened in it or held before. -/
theorem Call.Step.opens_or_held {n : Nat} (h : call.Step fresh client e call')
    (hn : client = some n) :
    (n = fresh ∧ ∃ c, e = .connect c (.ok ())) ∨ call.client = some n := by
  cases h with
  | opened c next => exact .inl ⟨(Option.some_inj.mp hn).symm, c, rfl⟩
  | refused c next text => cases hn
  | requested | lookedUp | released => exact .inr hn

theorem Call.Step.eq_of_opens {n : Nat} (h : call.Step fresh client e call')
    (hn : Event.opens ⟨i, client, e⟩ = some n) : n = fresh := by
  cases h with
  | opened c next => exact (Option.some_inj.mp hn).symm
  | refused | requested | lookedUp | released => cases hn

/-- A call opened the client that it holds. -/
theorem Stage.mem_of_client {n : Nat} (h : Stage v message i call events)
    (hn : call.client = some n) :
    (⟨i, some n, .connect v.connector (.ok ())⟩ : Event) ∈ events := by
  cases h with
  | waiting | refused | finished => cases hn
  | opened | answered =>
    obtain rfl := Option.some_inj.mp hn
    exact List.mem_cons_self

/-- A call has one client. -/
theorem Stage.client_eq (h : Stage v message i call events) :
    ∀ a ∈ events, ∀ b ∈ events, a.client = b.client := by
  cases h <;> simp

/-- By itself a call has the same course and comes to the same, given the same answers. -/
theorem run_sign_eq_course (draw : Entropy) (i n : Nat) {services : ConnectorId → Service}
    {opening : Except String Unit} {answer : Except String Octets}
    (hopening : (services v.connector).connect = opening)
    (hanswer : (services v.connector).sign (v.request message) = answer) :
    (v.toSigner.sign draw message).run services =
      ((course v message i n opening answer).map (·.exchange.contact),
        outcome v opening answer) := by
  rw [v.sign_toSigner, Dialogue.run_signing, hopening, hanswer]
  cases opening with
  | error text => rfl
  | ok _ => cases answer <;> rfl

/-! ## All calls -/

theorem own_concat (i : Nat) (history : List Event) (event : Event) :
    own i (history ++ [event]) = own i history ++ if event.call = i then [event] else [] := by
  by_cases h : event.call = i <;> simp [own, h]

theorem opened_concat (history : List Event) (event : Event) :
    opened (history ++ [event]) = opened history ++ event.opens.toList := by
  cases h : event.opens <;> simp [opened, h]

theorem released_concat (history : List Event) (event : Event) :
    released (history ++ [event]) = released history ++ event.releases.toList := by
  cases h : event.releases <;> simp [released, h]

theorem perm_held_set (h : calls[i]? = some call) (call' : Call) :
    (call.client.toList ++ held (calls.set i call')).Perm (call'.client.toList ++ held calls) := by
  obtain ⟨hi, rfl⟩ := List.getElem?_eq_some_iff.mp h
  have hcons : ∀ call rest, held (call :: rest) = call.client.toList ++ held rest := by
    intro call rest
    cases hclient : call.client <;> simp [held, hclient]
  have hbefore := (List.getElem_cons_eraseIdx_perm hi).filterMap (·.client)
  have hafter := (List.set_perm_cons_eraseIdx hi call').filterMap (·.client)
  calc calls[i].client.toList ++ held (calls.set i call')
      _ ~ calls[i].client.toList ++ held (call' :: calls.eraseIdx i) := hafter.append_left _
      _ ~ call'.client.toList ++ held (calls[i] :: calls.eraseIdx i) := by
        rw [hcons, hcons]
        exact List.perm_append_comm_assoc _ _ _
      _ ~ call'.client.toList ++ held calls := hbefore.append_left _

/-- Calls that sign messages, and their clients, are in order: every call is on its course, every
client that had a part in an event was opened by the call of that event, and the clients that were
opened are those that were let go of and those that are held. -/
structure Orderly (signings : List (ServiceSigner × Octets)) (s : State) : Prop where
  length_eq : s.calls.length = signings.length
  call_lt : ∀ event ∈ s.history, event.call < s.calls.length
  stage : ∀ i v message, signings[i]? = some (v, message) →
    ∃ call, s.calls[i]? = some call ∧ Stage v message i call (own i s.history)
  origin : ∀ event ∈ s.history, ∀ n, event.client = some n →
    ∃ c, s.history[n]? = some ⟨event.call, some n, .connect c (.ok ())⟩
  nodup : (opened s.history).Nodup
  account : (opened s.history).Perm (released s.history ++ held s.calls)

variable {signings : List (ServiceSigner × Octets)} {s s' : State}

theorem Orderly.start (draw : Entropy) (signings : List (ServiceSigner × Octets)) :
    Orderly signings (State.start draw signings) where
  length_eq := List.length_map _
  stage i v message h := by
    refine ⟨⟨v.toSigner.sign draw message, none⟩, ?_, Stage.start v message draw i⟩
    rw [State.start, List.getElem?_map, h]
    rfl
  call_lt _ h := absurd h List.not_mem_nil
  origin _ h := absurd h List.not_mem_nil
  nodup := List.nodup_nil
  account := by
    have hheld : held (State.start draw signings).calls = [] := by
      rw [held, State.start, List.filterMap_map]
      exact List.filterMap_eq_nil_iff.mpr fun _ _ => rfl
    rw [hheld]
    exact .nil

/-- Clients are known by places in the history. -/
theorem Orderly.lt_of_mem_opened (h : Orderly signings s) {n : Nat} (hn : n ∈ opened s.history) :
    n < s.history.length := by
  obtain ⟨event, hevent, hopens⟩ := List.mem_filterMap.mp hn
  obtain ⟨c, hc⟩ := h.origin event hevent n (Event.client_of_opens hopens)
  exact (List.getElem?_eq_some_iff.mp hc).1

theorem Orderly.exists_stage (h : Orderly signings s) (hcall : s.calls[i]? = some call) :
    ∃ v message, signings[i]? = some (v, message) ∧ Stage v message i call (own i s.history) := by
  obtain ⟨hi, -⟩ := List.getElem?_eq_some_iff.mp hcall
  rw [h.length_eq] at hi
  obtain ⟨found, hfound, hstage⟩ := h.stage i _ _ (List.getElem?_eq_getElem hi)
  obtain rfl := Option.some_inj.mp (hfound.symm.trans hcall)
  exact ⟨_, _, List.getElem?_eq_getElem hi, hstage⟩

/-- The client of an exchange is known by the place at which its call opened it. -/
theorem Orderly.exists_origin (h : Orderly signings s) (hcall : s.calls[i]? = some call)
    (hstep : call.Step s.history.length client e call') {n : Nat} (hn : client = some n) :
    ∃ c, (s.history ++ [⟨i, client, e⟩])[n]? = some ⟨i, some n, .connect c (.ok ())⟩ := by
  rcases hstep.opens_or_held hn with ⟨rfl, c, rfl⟩ | hheld
  · exact ⟨c, by rw [List.getElem?_concat_length, hn]⟩
  · obtain ⟨v, message, -, hstage⟩ := h.exists_stage hcall
    have hopening := (List.mem_filter.mp (hstage.mem_of_client hheld)).1
    obtain ⟨c, hc⟩ := h.origin _ hopening n rfl
    exact ⟨c, (List.getElem?_append_left (List.getElem?_eq_some_iff.mp hc).1).trans hc⟩

theorem Orderly.step (h : Orderly signings s) (hstep : s.Step s') : Orderly signings s' := by
  cases hstep with
  | @exchange i call call' client e hcall hexchange =>
    constructor
    case length_eq => exact List.length_set.trans h.length_eq
    case call_lt =>
      intro event hevent
      rw [List.length_set]
      rcases List.mem_append.mp hevent with hevent | hevent
      · exact h.call_lt event hevent
      · obtain rfl := List.mem_singleton.mp hevent
        exact (List.getElem?_eq_some_iff.mp hcall).1
    case stage =>
      intro j v message hsigning
      obtain ⟨found, hfound, hstage⟩ := h.stage j v message hsigning
      dsimp only
      rw [own_concat]
      by_cases hij : i = j
      · subst hij
        obtain rfl := Option.some_inj.mp (hfound.symm.trans hcall)
        rw [if_pos rfl, List.getElem?_set_self (List.getElem?_eq_some_iff.mp hcall).1]
        exact ⟨call', rfl, hstage.step hexchange⟩
      · -- The exchange is another call's, which leaves this one as it was.
        rw [if_neg hij, List.append_nil, List.getElem?_set_ne hij]
        exact ⟨found, hfound, hstage⟩
    case origin =>
      intro event hevent n hn
      rcases List.mem_append.mp hevent with hevent | hevent
      · obtain ⟨c, hc⟩ := h.origin event hevent n hn
        exact ⟨c, (List.getElem?_append_left (List.getElem?_eq_some_iff.mp hc).1).trans hc⟩
      · obtain rfl := List.mem_singleton.mp hevent
        exact h.exists_origin hcall hexchange hn
    case nodup =>
      rw [opened_concat]
      cases hopens : Event.opens ⟨i, client, e⟩ with
      | none => simpa using h.nodup
      | some n =>
        -- A new client is known by the length of the history, and all others by places in it.
        obtain rfl := hexchange.eq_of_opens hopens
        have hnew : s.history.length ∉ opened s.history :=
          fun hmem => lt_irrefl _ (h.lt_of_mem_opened hmem)
        exact List.concat_eq_append ▸ h.nodup.concat hnew
    case account =>
      -- Each client is counted in all the lists: what the call gains in one it loses in another.
      have haccount := hexchange.account (i := i)
      have hheld := perm_held_set hcall call'
      have hall := h.account
      rw [opened_concat, released_concat, List.perm_iff_count]
      intro n
      have hcount := congrArg (List.count n) haccount
      have hheld := hheld.count_eq n
      have hall := hall.count_eq n
      simp only [List.count_append] at hcount hheld hall ⊢
      omega

theorem orderly_of_reaches {draw : Entropy} (h : (State.start draw signings).Reaches s) :
    Orderly signings s := by
  induction h with
  | refl => exact Orderly.start draw signings
  | tail _ hstep ih => exact ih.step hstep

/-- The events that a client has a part in are those of one call. -/
theorem Orderly.ofClient_eq (h : Orderly signings s) {n : Nat} (hn : n ∈ opened s.history) :
    ∃ i, ofClient n s.history = own i s.history := by
  obtain ⟨event, hevent, hopens⟩ := List.mem_filterMap.mp hn
  have hclient := Event.client_of_opens hopens
  refine ⟨event.call, List.filter_congr fun other hother => decide_eq_decide.mpr ⟨?_, ?_⟩⟩
  · intro hother'
    obtain ⟨c, hc⟩ := h.origin event hevent n hclient
    obtain ⟨d, hd⟩ := h.origin other hother n hother'
    exact (Event.mk.inj (Option.some_inj.mp (hd.symm.trans hc))).1
  · intro hcall
    obtain ⟨v, message, -, hstage⟩ :=
      h.exists_stage (List.getElem?_eq_getElem (h.call_lt event hevent))
    have hown : ∀ e ∈ s.history, e.call = event.call → e ∈ own event.call s.history :=
      fun e he hcall => List.mem_filter.mpr ⟨he, decide_eq_true hcall⟩
    exact (hstage.client_eq _ (hown other hother hcall) _ (hown event hevent rfl)).trans hclient

/-- A call is over or can go on, whatever the other calls do. -/
theorem Orderly.over_or_step (h : Orderly signings s) (hcall : s.calls[i]? = some call) :
    (∃ result, call.rest = .done result) ∨
      ∃ s' event, s.Step s' ∧ s'.history = s.history ++ [event] ∧ event.call = i := by
  obtain ⟨v, message, -, hstage⟩ := h.exists_stage hcall
  rcases hstage.over_or_step s.history.length with hover | ⟨client, e, call', hstep⟩
  · exact .inl hover
  · exact .inr ⟨_, _, .exchange hcall hstep, rfl, rfl⟩

end Interleaving

/-! ## Setting up -/

namespace Session

variable {s : Session} {services : ConnectorId → Service} {draw : Entropy} {steps : List Step}

/-- A step that neither signs nor asks a directory: it registers, constructs or resolves. -/
def Step.Prepares : Step → Prop
  | .sign .. | .gcpExists .. | .gcpRequire .. | .require .. => False
  | _ => True

theorem contacts_adopt {α : Type} (s : Session) (kept : String) (made : Except KeyError α)
    (toSigner : α → Signer) (outcome : α → Outcome) :
    (s.adopt kept made toSigner outcome).1.contacts = s.contacts := by
  cases made <;> rfl

theorem contacts_perform {step : Step} (h : step.Prepares) :
    (s.perform services draw step).1.contacts = s.contacts := by
  cases step with
  | resolve kept source algorithm parameters =>
    cases source with
    | error e => rfl
    | ok source => exact contacts_adopt _ _ _ _ _
  | awsSigner | gcpSigner => exact contacts_adopt _ _ _ _ _
  | registerAws | registerGcp | registerCustom | contains | kmsTypes => rfl
  | sign | gcpExists | gcpRequire | require => exact absurd h id

/-- Constructing and resolving contacts no service. -/
theorem contacts_after (h : ∀ step ∈ steps, step.Prepares) :
    (s.after services draw steps).contacts = s.contacts := by
  induction steps generalizing s with
  | nil => rfl
  | cons step steps ih =>
    obtain ⟨hstep, hsteps⟩ := List.forall_mem_cons.mp h
    exact (ih hsteps).trans (contacts_perform hstep)

end Session

/-! ## Clients -/

namespace Interleaving

/-- Signers of the services that are asked for signatures side by side, where the order of their
exchanges and each answer are arbitrary. The clients that were opened so far are those that were let
go of and those that calls under way hold, each of them once, and the exchanges of a client are
those of one call. Every call is on its course: it opens a client, asks it for its own message, and
lets go of it whatever the answer, and after a failure to open one it does nothing more. At the end
of its course, and only there, it has come to what its own answers say, and it would do and come to
just the same by itself. Until then it can go on. And no service is contacted by registering,
constructing or resolving. -/
theorem clients_of_interleaving (draw : Entropy) (signings : List (ServiceSigner × Octets)) :
    (∀ s : State, (State.start draw signings).Reaches s →
      (opened s.history).Perm (released s.history ++ held s.calls) ∧ (opened s.history).Nodup ∧
      (∀ n ∈ opened s.history, ∃ i, ofClient n s.history = own i s.history) ∧
      ∀ i v message, signings[i]? = some (v, message) →
        ∃ call n opening answer, s.calls[i]? = some call ∧
          own i s.history <+: course v message i n opening answer ∧
          (∀ result, call.rest = .done result ↔
            own i s.history = course v message i n opening answer ∧
              result = outcome v opening answer) ∧
          (∀ services : ConnectorId → Service, (services v.connector).connect = opening →
            (services v.connector).sign (v.request message) = answer →
            (v.toSigner.sign draw message).run services =
              ((course v message i n opening answer).map (·.exchange.contact),
                outcome v opening answer)) ∧
          ((∃ result, call.rest = .done result) ∨
            ∃ s' event, s.Step s' ∧ s'.history = s.history ++ [event] ∧ event.call = i)) ∧
    ∀ (s : Session) (services : ConnectorId → Service) (steps : List Session.Step),
      (∀ step ∈ steps, step.Prepares) →
      (s.after services draw steps).contacts = s.contacts := by
  refine ⟨fun s hs => ?_, fun s services steps => Session.contacts_after⟩
  have horderly : Orderly signings s := orderly_of_reaches hs
  refine ⟨horderly.account, horderly.nodup, fun n => horderly.ofClient_eq, ?_⟩
  intro i v message hsigning
  obtain ⟨call, hcall, hstage⟩ := horderly.stage i v message hsigning
  obtain ⟨n, opening, answer, hcourse, hover⟩ := hstage.exists_course
  exact ⟨call, n, opening, answer, hcall, hcourse, hover,
    fun services => run_sign_eq_course draw i n, horderly.over_or_step hcall⟩

/-- Two services behind one connector: the second call opens its client while the first one waits
for its answer, and the third call opens none. -/
theorem clients_of_interleaving_shared_connector :
    let aws : ServiceSigner := .aws ⟨"alias/a", "ECDSA_SHA_256", 0⟩
    let gcp : ServiceSigner := .gcp ⟨⟨"p", "l", "r", "k", "1"⟩, 0⟩
    let signings := [(aws, [1]), (gcp, [2]), (aws, [3])]
    let draw : Entropy := (List.replicate · 0)
    let services : ConnectorId → Service := fun _ => ⟨.ok (), fun _ => .error "busy", none⟩
    let history : List Event := [⟨0, some 0, .connect 0 (.ok ())⟩, ⟨1, some 1, .connect 0 (.ok ())⟩,
      ⟨2, none, .connect 0 (.error "down")⟩,
      ⟨1, some 1, .request 0 (gcp.request [2]) (.error "busy")⟩, ⟨1, some 1, .release 0⟩]
    (∃ s, (State.start draw signings).Reaches s ∧ s.history = history ∧
      [0, 1].Perm ([1] ++ held s.calls) ∧
      (∃ call, s.calls[1]? = some call ∧
        call.rest = .done (.error (.signing "GCP" (.reported "busy")))) ∧
      ((gcp.toSigner.sign draw [2]).run services).2 =
        .error (.signing "GCP" (.reported "busy"))) ∧
      (Session.start.after services draw
        [.registerAws 0, .resolve "key" (.ok (.remote .aws "a")) "SHA256withECDSA" none]).contacts =
          [] := by
  intro aws gcp signings draw services history
  obtain ⟨hall, hsession⟩ := clients_of_interleaving draw signings
  refine ⟨?_, hsession .start services _ (by simp [Session.Step.Prepares])⟩
  have hreached : ∃ s, (State.start draw signings).Reaches s ∧ s.history = history :=
    ⟨_, .tail (.tail (.tail (.tail (.tail .refl
      (.exchange (i := 0) rfl (.opened _ _)))
      (.exchange (i := 1) rfl (.opened _ _)))
      (.exchange (i := 2) rfl (.refused _ _ "down")))
      (.exchange (i := 1) rfl (.requested _ _ _ (.error "busy") _)))
      (.exchange (i := 1) rfl (.released _ _ _)), rfl⟩
  obtain ⟨s, hs, hhistory⟩ := hreached
  obtain ⟨hperm, -, -, hcalls⟩ := hall s hs
  obtain ⟨call, n, opening, answer, hcall, hcourse, hover, halone, -⟩ := hcalls 1 gcp [2] rfl
  have hown : own 1 history = course gcp [2] 1 1 (.ok ()) (.error "busy") := by rfl
  rw [hhistory, hown] at hcourse hover
  rw [hhistory] at hperm
  obtain ⟨rfl, rfl, rfl⟩ : opening = .ok () ∧ n = 1 ∧ answer = .error "busy" := by
    cases opening with
    | error text => exact absurd hcourse.length_le (by simp [course])
    | ok _ =>
      have heq := List.IsPrefix.eq_of_length hcourse rfl
      simp only [course, List.cons.injEq, Event.mk.injEq, Option.some.injEq,
        Exchange.request.injEq] at heq
      exact ⟨rfl, heq.1.2.1.symm, heq.2.1.2.2.2.2.symm⟩
  have hover : call.rest = .done (.error (.signing "GCP" (.reported "busy"))) :=
    (hover _).mpr ⟨rfl, rfl⟩
  exact ⟨s, hs, hhistory, hperm, ⟨call, hcall, hover⟩, congrArg Prod.snd (halone services rfl rfl)⟩

end Interleaving

end KeyCustody
