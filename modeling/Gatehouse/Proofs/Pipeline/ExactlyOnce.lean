/-
Exactly one recorded execution for each key, on every run of the gates.

The main result is `exactlyOnce_run`: over any sequence of arrivals, wake-ups, answers, failures,
polls and drops in which no record of a key grows too old, one execution for the key is recorded at
most, no call of the handler for the key follows it, and every answer for the key is a refusal of
one in progress, the failure of the visit's own execution, or the recorded response itself.

What remains to be shown for it is where records come from. `Sourced` says that every record is
the response that a handler gave, and what it says of a response on its way into the store is
the invariant behind that: the pieces that were read and those that are left are the pieces
that the handler gave.
-/
import Gatehouse.Proofs.Pipeline.Agreement
import Mathlib

set_option autoImplicit false

namespace Gatehouse.Pipeline

open Gatehouse.Http Gatehouse.Idempotency Gatehouse.Routing Gatehouse.Traffic

/-! ## Responses of handlers -/

/-- A body that can be read to its end. -/
def Readable (b : Body) : Prop := ∀ piece ∈ b.pieces, ∃ frame, piece = .frame frame

/-- **A record is the record of a response:** its status, its headers in their order, and the bytes
of its body, which can be read to its end. -/
structure RecordOf (record : Record) (response : Response) : Prop where
  status : record.status = response.status
  headers : record.headers = response.headers.toList
  body : record.body = bodyBytes response.body
  readable : Readable response.body

/-- What has been read of a response that is to be stored, and what is left of it. -/
structure ReadSoFar (response : Response) (status : Status) (headers : Headers) (passage : Passage)
    (reading : Reading) : Prop where
  status : status = response.status
  headers : headers = response.headers
  body : ∃ read rest, passage.responseBody? = some rest ∧ response.body.pieces = read ++ rest.pieces
    ∧ (∀ piece ∈ read, ∃ frame, piece = .frame frame) ∧ reading.data = read.flatMap Piece.bytes

theorem data_add_frame (reading : Reading) (frame : Frame) :
    (reading.add (.frame frame)).data = reading.data ++ (Piece.frame frame).bytes := by
  cases frame with
  | data bytes => rfl
  | trailers headers => exact (List.append_nil _).symm

theorem ReadSoFar.start {response : Response} {passage : Passage}
    (hbody : passage.responseBody? = some response.body) :
    ReadSoFar response response.status response.headers passage Reading.start :=
  ⟨rfl, rfl, [], response.body, hbody, rfl, nofun, rfl⟩

/-- A frame that is read goes from what is left to what was read. -/
theorem ReadSoFar.frame {response : Response} {status : Status} {headers : Headers}
    {passage next : Passage} {reading : Reading} {frame : Frame}
    (h : ReadSoFar response status headers passage reading)
    (hbody : ∀ body, passage.responseBody? = some body → ∃ rest, body.pieces = .frame frame :: rest
      ∧ next.responseBody? = some { body with pieces := rest }) :
    ReadSoFar response status headers next (reading.add (.frame frame)) := by
  obtain ⟨read, body, hpassage, hpieces, hframes, hdata⟩ := h.body
  obtain ⟨rest, hfirst, hnext⟩ := hbody body hpassage
  refine ⟨h.status, h.headers, read ++ [.frame frame], _, hnext, ?_, fun piece hpiece => ?_, ?_⟩
  · rw [hpieces, hfirst, List.append_assoc]
    rfl
  · rcases List.mem_append.1 hpiece with hold | hnew
    · exact hframes piece hold
    · exact ⟨frame, List.mem_singleton.1 hnew⟩
  · rw [data_add_frame, hdata, List.flatMap_append, List.flatMap_singleton]

/-- At the end of the body the record of what was read is the record of the response. -/
theorem ReadSoFar.recordOf {response : Response} {status : Status} {headers : Headers}
    {passage : Passage} {reading : Reading} (h : ReadSoFar response status headers passage reading)
    (hend : ∀ body, passage.responseBody? = some body → body.pieces = []) (key : String) :
    RecordOf (Record.ofResponse key { status, headers, body := reading.data }) response := by
  obtain ⟨read, body, hpassage, hpieces, hframes, hdata⟩ := h.body
  rw [hend body hpassage, List.append_nil] at hpieces
  refine ⟨h.status, ?_, ?_, ?_⟩
  · rw [← h.headers]
    rfl
  · rw [bodyBytes, hpieces]
    exact hdata
  · rw [Readable, hpieces]
    exact hframes

namespace Gates

/-- **Invariant,** given which handlers have given which responses: a response on its way into the
store and every record that was stored were given by the handler of their visit. -/
structure Sourced (gave : Nat → Response → Prop) (x : Ledger) (visits : List Visit) : Prop where
  storing : ∀ (i : Nat) (v : Visit) (key : String) (status : Status) (headers : Headers)
    (passage : Passage) (reading : Reading), visits[i]? = some v →
    v.place = .storing key status headers passage reading →
    ∃ response, gave i response ∧ ReadSoFar response status headers passage reading
  stored : ∀ (i : Nat) (record : Record), .stored i record ∈ x.decisions →
    ∃ response, gave i response ∧ RecordOf record response

theorem sourced_start (gave : Nat → Response → Prop) (ttl : Option Nat) :
    Sourced gave { store := Store.ofTtl ttl, decisions := [] } [] where
  storing := fun _ _ _ _ _ _ _ hv => (not_getElem?_nil hv).elim
  stored := fun _ _ h => absurd h List.not_mem_nil

section

variable {g : Guard} {gave : Nat → Response → Prop} {x after : Ledger} {visits : List Visit}

theorem Sourced.mono {more : Nat → Response → Prop} (h : Sourced gave x visits)
    (hmore : ∀ i response, gave i response → more i response) : Sourced more x visits where
  storing := fun i v key status headers passage reading hv hplace => by
    obtain ⟨response, hgave, hread⟩ := h.storing i v key status headers passage reading hv hplace
    exact ⟨response, hmore i response hgave, hread⟩
  stored := fun i record hstored => by
    obtain ⟨response, hgave, hrecord⟩ := h.stored i record hstored
    exact ⟨response, hmore i response hgave, hrecord⟩

theorem Sourced.come (h : Sourced gave x visits) {v : Visit} (hfresh : v.Fresh) :
    Sourced gave x (visits ++ [v]) := by
  refine ⟨fun i u key status headers passage reading hu hplace => ?_, h.stored⟩
  rcases of_getElem?_concat hu with ⟨rfl, rfl⟩ | hold
  · exact absurd (hfresh.place.symm.trans hplace) nofun
  · exact h.storing i u key status headers passage reading hold hplace

/-- A visit whose response is being read after a move has a response that its handler gave. -/
theorem readSoFar_of_moves {now : Nat} {given : Option Response} {v : Visit} {claim : Option String}
    {place : Place} (h : Visit.Moves g now given x v after claim place) {i : Nat}
    (hgave : ∀ response passage, given = some response → v.place = .executing passage →
      gave i response)
    (hv : ∀ key status headers passage reading,
      v.place = .storing key status headers passage reading →
      ∃ response, gave i response ∧ ReadSoFar response status headers passage reading)
    {key : String} {status : Status} {headers : Headers} {passage : Passage} {reading : Reading}
    (hplace : place = .storing key status headers passage reading) :
    ∃ response, gave i response ∧ ReadSoFar response status headers passage reading := by
  cases h with
  | stays => exact hv key status headers passage reading hplace
  -- only two moves lead to a response that is being read: the handler has just answered, or
  -- a frame was read
  | captures taken before next response hexecuting hclaim hgiven hbody =>
    cases hplace
    exact ⟨response, hgave response before hgiven hexecuting, .start hbody⟩
  | absorbs taken oldStatus oldHeaders before next old frame hstoring hbody =>
    cases hplace
    obtain ⟨response, hresponse, hread⟩ := hv _ _ _ before old hstoring
    exact ⟨response, hresponse, hread.frame hbody⟩
  | _ => exact absurd hplace nofun

/-- A record that a move stores is the record of what was read. -/
theorem stored_of_effect {now : Nat} {v : Visit} {claim : Option String}
    (h : Visit.Effect g now x v after claim) {i : Nat} {record : Record}
    (hstored : .stored i record ∈ after.decisions) :
    .stored i record ∈ x.decisions
      ∨ i = v.id ∧ ∃ key status headers passage reading,
        v.place = .storing key status headers passage reading
          ∧ (∀ body, passage.responseBody? = some body → body.pieces = [])
          ∧ record = Record.ofResponse key { status, headers, body := reading.data } := by
  -- an event that stores a record is not quiet, so it is none of those that are merely noted
  have hquietly : ∀ events : List Event, (∀ e ∈ events, Visit.Quiet g v e) →
      .stored i record ∈ x.decisions ++ events → .stored i record ∈ x.decisions := by
    intro events hquiet hmem
    rcases List.mem_append.1 hmem with hold | hnew
    · exact hold
    · exact (hquiet _ hnew).elim
  cases h with
  | notes events hquiet => exact .inl (hquietly events hquiet hstored)
  | takes key => exact .inl (by simpa [Ledger.take, Ledger.note] using hstored)
  | givesUp events hquiet =>
    cases hclaim : v.claim with
    | none =>
      rw [hclaim] at hstored
      exact .inl (hquietly events hquiet hstored)
    | some key =>
      rw [hclaim] at hstored
      rcases List.mem_append.1 hstored with hold | hunclaimed
      · exact .inl (hquietly events hquiet hold)
      · cases List.mem_singleton.1 hunclaimed
  | completes key status headers passage reading hclaim hplace hbody =>
    rcases List.mem_append.1 hstored with hold | hnew
    · exact .inl hold
    · obtain ⟨hid, hrecord⟩ := Event.stored.inj (List.mem_singleton.1 hnew)
      exact .inr ⟨hid, key, status, headers, passage, reading, hplace, hbody, hrecord⟩

/-- **A move keeps the sources.** -/
theorem Sourced.move (h : Sourced gave x visits) (howned : Owned g x visits) {i now : Nat}
    {given : Option Response} {v u : Visit} (hv : visits[i]? = some v)
    (hmoved : Visit.Moved g now given x v after u)
    (hgave : ∀ response passage, given = some response → v.place = .executing passage →
      gave i response) : Sourced gave after (visits.set i u) := by
  refine ⟨fun j w key status headers passage reading hw hplace => ?_, fun j record hstored => ?_⟩
  · rcases of_getElem?_set hw with ⟨rfl, rfl⟩ | ⟨-, hold⟩
    · exact readSoFar_of_moves hmoved.moves hgave (fun key status headers passage reading =>
        h.storing j v key status headers passage reading hv) hplace
    · exact h.storing j w key status headers passage reading hold hplace
  · rcases stored_of_effect (hmoved.moves.effect (howned.sound i v hv)) hstored with
      hold | ⟨hj, key, status, headers, passage, reading, hplace, hbody, rfl⟩
    · exact h.stored j record hold
    · rw [hj, howned.id i v hv]
      obtain ⟨response, hresponse, hread⟩ :=
        h.storing i v key status headers passage reading hv hplace
      exact ⟨response, hresponse, hread.recordOf hbody key⟩

/-- **A step keeps the sources** if it counts as an answer of the handler where it is one. -/
theorem Sourced.step (h : Sourced gave x visits) (howned : Owned g x visits) {a : Action}
    {visitsAfter : List Visit} (hstep : LedgerStep g a x visits after visitsAfter)
    (hgave : ∀ i v passage response now, visits[i]? = some v → v.place = .executing passage →
      a = .reply i (.ok response) now → gave i response) : Sourced gave after visitsAfter := by
  have hboth : Owned g after visitsAfter ∧ Sourced gave after visitsAfter := by
    refine hstep.preserves (motive := fun y ys => Owned g y ys ∧ Sourced gave y ys) ⟨howned, h⟩
      (fun v hfresh hid => ⟨howned.come hfresh hid, h.come hfresh⟩) ?_
      (fun now _ => ⟨howned.purge now, h.storing, h.stored⟩)
    intro there i now given v u after hx hv hmoved hgiven _
    refine ⟨hx.1.move hv hmoved, hx.2.move hx.1 hv hmoved fun response passage hsome hplace => ?_⟩
    obtain ⟨ha, rfl⟩ := hgiven response hsome
    exact hgave i v passage response now hv hplace ha
  exact hboth.2

/-! ## Answers -/

/-- **How a visit that asks for a key comes to be answered:** it is denied a permission, told
that the key is being executed, told that its own response could not be read, or given the
record of the key. -/
theorem answer_of_moves {now : Nat} {given : Option Response} {v : Visit} {claim : Option String}
    {place : Place} {key : String} (h : Visit.Moves g now given x v after claim place)
    (hsound : v.Sound g) (hasks : v.AsksFor g key) (hnumbered : x.Numbered)
    (hagreed : Agreed g key x visits)
    (hawaited : ∀ key handle, v.place = .waiting key handle →
      x.claimedKeys[handle.claim]? = some key)
    (hbefore : ∀ status headers passage, v.place ≠ .answered status headers passage)
    {status : Status} {headers : Headers} {passage : Passage}
    (hplace : place = .answered status headers passage) :
    (∃ name, .denied v.id name ∈ after.decisions)
      ∨ (status = Status.conflict ∧ .rejected v.id key ∈ after.decisions)
      ∨ (status = Status.badGateway ∧ .unclaimed v.id key ∈ after.decisions)
      ∨ ∃ record, after.store.recordOf? key = some record
        ∧ Place.answered status headers passage = Visit.recordPlace record := by
  cases h with
  | stays => exact absurd hplace (hbefore status headers passage)
  | denied name => exact .inl ⟨name, List.mem_append_right _ (List.mem_singleton.2 rfl)⟩
  | refused _ _ _ _ hnone => exact absurd hasks (hnone key)
  | replays other record storedAt hwants hslot =>
    rw [(hsound.of_wants hwants).2.unique hasks] at hslot
    exact .inr (.inr (.inr ⟨record, Store.recordOf?_of_ready hslot, hplace.symm⟩))
  | rejected other _ _ hwants =>
    rw [(hsound.of_wants hwants).2.unique hasks]
    cases hplace
    exact .inr (.inl ⟨rfl, List.mem_append_right _ (List.mem_singleton.2 rfl)⟩)
  | replaysAwaited other handle record hwaiting hended =>
    have hother : other = key := (hsound.of_waiting hwaiting).2.unique hasks
    subst hother
    -- the number of the claim stands for the key of the handle and for the key of the record
    have hmem := Store.mem_endings_of_ending? hended
    have hkey : record.key = other :=
      Option.some.inj
        ((hnumbered.completed _ record hmem).symm.trans (hawaited other handle hwaiting))
    exact .inr (.inr (.inr ⟨record, hagreed.completed _ record hmem hkey, hplace.symm⟩))
  | answers _ _ _ hexecuting hclaim =>
    exact absurd hasks (hsound.of_executing_none hexecuting hclaim key)
  | captureFails other _ _ _ _ _ _ hstoring =>
    obtain ⟨hclaim, hother⟩ := hsound.of_storing hstoring
    rw [hclaim, hother.unique hasks]
    cases hplace
    exact .inr (.inr (.inl ⟨rfl, List.mem_append_right _ (List.mem_singleton.2 rfl)⟩))
  | stores other _ _ _ _ hstoring =>
    have hother : other = key := (hsound.of_storing hstoring).2.unique hasks
    subst hother
    exact .inr (.inr (.inr ⟨_, Store.recordOf?_complete_self x.store _ now, hplace.symm⟩))
  | delivers _ _ _ _ hanswered => exact absurd hanswered (hbefore _ _ _)
  | _ => exact absurd hplace nofun

end

/-- **A visit is answered** in a step: it has an answer after the step, and had none before. -/
def AnsweredIn (g : Guard) (s : Gates) (a : Action) (i : Nat) (status : Status) (headers : Headers)
    (passage : Passage) : Prop :=
  (∃ v, (s.step g a).visits[i]? = some v ∧ v.place = .answered status headers passage)
    ∧ ∀ v, s.visits[i]? = some v →
      ∀ status headers passage, v.place ≠ .answered status headers passage

/-- A visit that is answered for a key in a step is denied, refused, has failed, or
gets the record. -/
theorem answer_of_step {g : Guard} {s : Gates} {a : Action} {key : String}
    (howned : Owned g s.world.ledger s.visits) (hagreed : Agreed g key s.world.ledger s.visits)
    {i : Nat} {status : Status} {headers : Headers} {passage : Passage}
    (hanswered : AnsweredIn g s a i status headers passage)
    (hasks : Asks g (s.step g a).visits key i) :
    (∃ name, .denied i name ∈ (s.step g a).world.ledger.decisions)
      ∨ (status = Status.conflict ∧ .rejected i key ∈ (s.step g a).world.ledger.decisions)
      ∨ (status = Status.badGateway ∧ .unclaimed i key ∈ (s.step g a).world.ledger.decisions)
      ∨ ∃ record, (s.step g a).world.ledger.store.recordOf? key = some record
        ∧ Place.answered status headers passage = Visit.recordPlace record := by
  obtain ⟨⟨w, hw, hplace⟩, hbefore⟩ := hanswered
  obtain ⟨z, hz, hkey⟩ := hasks
  rw [Option.some.inj (hz.symm.trans hw)] at hkey
  -- the step itself is of no use any more once it is known to be a step of the ledger
  have hstep := step_ledger g s a
  generalize (s.step g a).world.ledger = after at hstep ⊢
  generalize (s.step g a).visits = visitsAfter at hstep hw
  cases hstep with
  | idle => exact absurd hplace (hbefore w hw status headers passage)
  | purge => exact absurd hplace (hbefore w hw status headers passage)
  | visit j now given v u after hv hmoved hgiven htime =>
    rcases of_getElem?_set hw with ⟨rfl, rfl⟩ | ⟨-, hold⟩
    · have hid := howned.id i v hv
      subst hid
      rw [hmoved.asksFor] at hkey
      exact answer_of_moves hmoved.moves (howned.sound _ v hv) hkey howned.numbered hagreed
        (fun key handle => howned.awaited _ v key handle hv) (hbefore v hv) hplace
    · exact absurd hplace (hbefore w hold status headers passage)
  | arrive now v u after hfresh hid hmoved htime =>
    -- a visit may be answered as it comes, when it finds a record, is refused or is denied
    rcases of_getElem?_concat hw with ⟨hi, rfl⟩ | hold
    · rw [← hid] at hi
      subst hi
      rw [hmoved.asksFor] at hkey
      have hnowhere : ∀ place, place ≠ .gone → v.place ≠ place := fun place hne heq =>
        hne (heq.symm.trans hfresh.place)
      exact answer_of_moves hmoved.moves (hfresh.sound g) hkey howned.numbered hagreed
        (fun key handle hwaiting => absurd hwaiting (hnowhere _ nofun))
        (fun status headers passage => hnowhere _ nofun) hplace
    · exact absurd hplace (hbefore w hold status headers passage)

/-! ## Runs -/

/-- **The handler of a visit has given a response** in a run: it was at the handler then. -/
def Gave (g : Guard) (s : Gates) (actions : List Action) (i : Nat) (response : Response) : Prop :=
  ∃ before now after v passage, actions = before ++ Action.reply i (.ok response) now :: after
    ∧ (s.run g before).visits[i]? = some v ∧ v.place = .executing passage

theorem Gave.concat {g : Guard} {s : Gates} {actions : List Action} {i : Nat} {response : Response}
    (h : Gave g s actions i response) (a : Action) : Gave g s (actions ++ [a]) i response := by
  obtain ⟨before, now, after, v, passage, rfl, hv, hplace⟩ := h
  exact ⟨before, now, after ++ [a], v, passage, by simp, hv, hplace⟩

/-- **No record of a key grows too old** in a run: none does before the last time that
something happens. -/
def KeepsRecords (g : Guard) (key : String) (s : Gates) (actions : List Action) : Prop :=
  ∀ before a after, actions = before ++ a :: after → ∀ now, a.time? = some now →
    (s.run g before).world.store.Kept key now

theorem KeepsRecords.of_append {g : Guard} {key : String} {s : Gates} {actions more : List Action}
    (h : KeepsRecords g key s (actions ++ more)) : KeepsRecords g key s actions := by
  rintro before b after rfl now htime
  exact h before b (after ++ more) (by simp) now htime

theorem KeepsRecords.last {g : Guard} {key : String} {s : Gates} {actions : List Action}
    {a : Action} (h : KeepsRecords g key s (actions ++ [a])) (now : Nat)
    (htime : a.time? = some now) :
    (s.run g actions).world.store.Kept key now :=
  h actions a [] rfl now htime

section

variable (g : Guard) (config : Breaker.BreakerConfig) (ttlMs : Option Nat)

/-- **On every run that keeps the records of a key** its history agrees with its slot. -/
theorem agreed_run (key : String) (actions : List Action)
    (hkept : KeepsRecords g key (start (World.start config ttlMs)) actions) :
    Agreed g key ((start (World.start config ttlMs)).run g actions).world.ledger
      ((start (World.start config ttlMs)).run g actions).visits := by
  induction actions using List.reverseRecOn with
  | nil => exact agreed_start g key ttlMs
  | append_singleton actions a ih =>
    rw [run_concat]
    exact (ih hkept.of_append).step (owned_run g config ttlMs actions)
      (step_ledger g _ a) hkept.last

/-- **On every run** records are what handlers have given. -/
theorem sourced_run (actions : List Action) :
    Sourced (Gave g (start (World.start config ttlMs)) actions)
      ((start (World.start config ttlMs)).run g actions).world.ledger
      ((start (World.start config ttlMs)).run g actions).visits := by
  induction actions using List.reverseRecOn with
  | nil => exact sourced_start _ ttlMs
  | append_singleton actions a ih =>
    rw [run_concat]
    refine (ih.mono fun i response hgave => hgave.concat a).step (owned_run g config ttlMs actions)
      (step_ledger g _ a) ?_
    -- a response that is given in the last action is given after all the others
    rintro i v passage response now hv hplace rfl
    exact ⟨actions, now, [], v, passage, rfl, hv, hplace⟩

theorem ttl_run (actions : List Action) :
    ((start (World.start config ttlMs)).run g actions).world.store.ttl = ttlMs := by
  induction actions using List.reverseRecOn with
  | nil => rfl
  | append_singleton actions a ih =>
    rw [run_concat]
    have howned := owned_run g config ttlMs actions
    -- ownership goes along because only a sound visit has one of the four effects
    have hboth := (step_ledger g ((start (World.start config ttlMs)).run g actions) a).preserves
      (motive := fun y ys => Owned g y ys ∧ y.store.ttl = ttlMs) ⟨howned, ih⟩
      (fun v hfresh hid => ⟨howned.come hfresh hid, ih⟩)
      (fun there i now given v u after hx hv hmoved _ _ => ⟨hx.1.move hv hmoved,
        (hmoved.moves.effect (hx.1.sound i v hv)).ttl.trans hx.2⟩)
      (fun now _ => ⟨howned.purge now, ih⟩)
    exact hboth.2

/-- Without a time to live no record ever grows too old. -/
theorem keepsRecords_of_no_ttl (key : String) (actions : List Action) :
    KeepsRecords g key (start (World.start config none)) actions := by
  rintro before a after - now - record storedAt -
  rw [Store.expired, ttl_run g config none before]

end

/-! ## The history -/

theorem mem_history_of_mem_decisions {w : World} {e : Event} (h : e ∈ w.ledger.decisions) :
    e ∈ w.history :=
  (List.mem_filter.1 h).1

theorem storedRecords_history (w : World) (key : String) :
    w.history.filterMap (Event.storedRecord? key) = w.ledger.storedRecords key := by
  rw [Ledger.storedRecords, World.ledger, List.filterMap_filter]
  refine congrArg (fun f => w.history.filterMap f) (funext fun e => ?_)
  cases e <;> rfl

/-- A history in which no decision follows a record that it must not follow has no
such event at all. -/
theorem final_history {g : Guard} {visits : List Visit} {key : String} {w : World}
    (h : w.ledger.decisions.Pairwise (Final g visits key)) :
    w.history.Pairwise (Final g visits key) := by
  refine (List.pairwise_filter.1 h).imp fun {e f} hfinal hstored i hcall => ?_
  -- what stores a record is a decision, and so is a call
  have he : e.isPermission = false := by
    cases e with
    | granted => exact absurd rfl hstored
    | settled => exact absurd rfl hstored
    | _ => rfl
  subst hcall
  exact hfinal (by rw [he]; rfl) rfl hstored i rfl

/-- **Exactly one recorded execution for each key, and agreement with it.** On every run that keeps
the records of a key, from any configuration and with any number of requests in any order of steps:
at most one record is ever stored for the key; after it the handler is not called for any visit that
asks for the key; and a visit that asks for the key and is not denied a permission is answered by
the refusal of one in progress, by the failure of its own execution, or with status, headers and
body of the response whose record is stored for the key and stands in its slot by then. -/
theorem exactlyOnce_run (g : Guard) (config : Breaker.BreakerConfig) (ttlMs : Option Nat)
    (key : String) (actions : List Action)
    (hkept : KeepsRecords g key (start (World.start config ttlMs)) actions) :
    let s := (start (World.start config ttlMs)).run g actions
    (s.world.history.filterMap (Event.storedRecord? key)).length ≤ 1
      ∧ s.world.history.Pairwise (Final g s.visits key)
      ∧ ∀ before a after, actions = before ++ a :: after →
        let s₁ := (start (World.start config ttlMs)).run g before
        let s₂ := s₁.step g a
        ∀ i status headers passage, AnsweredIn g s₁ a i status headers passage →
          Asks g s₂.visits key i →
          (∀ name, .denied i name ∉ s₂.world.history) →
          (status = Status.conflict ∧ .rejected i key ∈ s₂.world.history)
            ∨ (status = Status.badGateway ∧ .unclaimed i key ∈ s₂.world.history)
            ∨ ∃ j record storedAt response, .stored j record ∈ s₂.world.history
              ∧ s₂.world.store.slot? key = some (.ready record storedAt)
              ∧ Gave g (start (World.start config ttlMs)) (before ++ [a]) j response
              ∧ RecordOf record response
              ∧ status = response.status ∧ headers = response.headers
              ∧ passage = Passage.ofBody (Body.ofBytes (bodyBytes response.body)) := by
  intro s
  have hagreed := agreed_run g config ttlMs key actions hkept
  refine ⟨?_, final_history hagreed.final, ?_⟩
  · rw [storedRecords_history, hagreed.stored_eq]
    cases s.world.ledger.store.recordOf? key with
    | none => exact Nat.zero_le 1
    | some record => exact Nat.le_refl 1
  · rintro before a after rfl s₁ s₂ i status headers passage hanswered hasks hdenied
    -- the answer is looked at where it is given: agreement before the step says what can be found,
    -- and agreement after it says that what was found is recorded
    have hthrough : KeepsRecords g key (start (World.start config ttlMs))
        (before ++ [a] ++ after) := by
      rw [List.append_assoc]
      exact hkept
    have hthen := agreed_run g config ttlMs key (before ++ [a]) hthrough.of_append
    have hsourced := sourced_run g config ttlMs (before ++ [a])
    rw [run_concat] at hthen hsourced
    rcases answer_of_step (owned_run g config ttlMs before)
      (agreed_run g config ttlMs key before hkept.of_append)
        hanswered hasks with ⟨name, hname⟩ | ⟨hstatus, hrejected⟩ | ⟨hstatus, hunclaimed⟩
          | ⟨record, hrecord, hplace⟩
    · exact absurd (mem_history_of_mem_decisions hname) (hdenied name)
    · exact .inl ⟨hstatus, mem_history_of_mem_decisions hrejected⟩
    · exact .inr (.inl ⟨hstatus, mem_history_of_mem_decisions hunclaimed⟩)
    · have hmem : record ∈ s₂.world.ledger.storedRecords key := by
        rw [hthen.stored_eq, hrecord]
        exact List.mem_singleton.2 rfl
      obtain ⟨-, j, hstored⟩ := Ledger.mem_storedRecords_iff.1 hmem
      obtain ⟨storedAt, hslot⟩ := Store.ready_of_recordOf? hrecord
      obtain ⟨response, hgave, hof⟩ := hsourced.stored j record hstored
      obtain ⟨hstatus, hheaders, hpassage⟩ := Place.answered.inj hplace
      refine .inr
        (.inr ⟨j, record, storedAt, response, mem_history_of_mem_decisions hstored, hslot, hgave,
        hof, hstatus.trans hof.status, ?_, ?_⟩)
      · rw [hheaders, hof.headers]
        exact response.headers.ofList_toList
      · rw [hpassage, hof.body]

/-- Gates with the idempotency layer alone, under which every request is idempotent. -/
def idempotentGuard : Guard :=
  { layers := { breaker := false, idempotency := true, recording := false }
    rules := { rules := [], defaultPolicy := RoutePolicy.fresh.modify [.unprotected, .idempotent] }
    recordServerErrors := false
    keyHeader := ⟨"x-idempotency-key"⟩
    inFlight := .wait
    waitTimeoutMs := 10000
    retryAfterSecs := 1
    recorder := Traffic.Recorder.ofSettings Traffic.Settings.standard }

/-- An order with a key. -/
def order : Request :=
  { method := ⟨"POST"⟩
    uri := { scheme := none, authority := "", path := "/orders", query := none }
    headers := Headers.empty.append ⟨"x-idempotency-key"⟩ (Bytes.ofString "k")
    body := Body.empty
    assignedId := none }

/-- It comes twice; the second one waits, and is woken when the response of the first one is
stored. -/
def orderedTwice : List Action :=
  [.arrive order none 0, .arrive order none 1,
    .reply 0 (.ok { status := ⟨201⟩, headers := Headers.empty, body := Body.ofBytes [111, 107] }) 2,
    .absorb 0 3, .absorb 0 4, .resume 1 false 5]

/-- The status and the bytes that a visit is answered with. -/
def answerOf? (v : Visit) : Option (Status × Bytes) :=
  match v.place with
  | .answered status _ passage => some (status, (passage.responseBody?.map bodyBytes).getD [])
  | _ => none

/-- One record is stored, and both visits are answered with it. -/
theorem exactlyOnce_run_orderedTwice :
    let s₀ := start (World.start Breaker.BreakerConfig.standard none)
    let s := s₀.run idempotentGuard orderedTwice
    KeepsRecords idempotentGuard "k" s₀ orderedTwice
      ∧ (s.world.history.filterMap (Event.storedRecord? "k")).length = 1
      ∧ s.visits.map answerOf? = [some (⟨201⟩, [111, 107]), some (⟨201⟩, [111, 107])]
      ∧ s.world.history.Pairwise (Final idempotentGuard s.visits "k") := by
  intro s₀ s
  have hkept :=
    keepsRecords_of_no_ttl idempotentGuard Breaker.BreakerConfig.standard "k" orderedTwice
  have hstored : (s.world.history.filterMap (Event.storedRecord? "k")).length = 1 := by
    simp only [s, s₀]
    cbv
  have hanswers : s.visits.map answerOf?
      = [some (⟨201⟩, [111, 107]), some (⟨201⟩, [111, 107])] := by
    simp only [s, s₀]
    cbv
  exact ⟨hkept, hstored, hanswers,
    (exactlyOnce_run idempotentGuard Breaker.BreakerConfig.standard none "k"
      orderedTwice hkept).2.1⟩

end Gates
end Gatehouse.Pipeline
