/-
What a response loses on its way through the idempotency gate.

A response that is to be stored is taken apart: its body is read to the end, its status, its headers
and the bytes that were read make the record, and what the client is given is rebuilt from the
record. So it is for the visit that stores the record, and for every visit that the record is
replayed to. The status, the headers in their order and the data come through whole (`Rebuilds`),
and trailers do not: the client has what the handler's own body would have been read as exactly if
that body has none (`deliveries_run`). A visit that needs no key is given the handler's response
itself, and has the trailers too (`Delivers`).

All this is about readings that have come to their end. A reading of a rebuilt body does, and not
later than a reading of the handler's body would.
-/
import Gatehouse.Proofs.Pipeline.Replays

set_option autoImplicit false

namespace Gatehouse

open Gatehouse.Http Gatehouse.Idempotency Gatehouse.Routing Gatehouse.Traffic

namespace Http

/-! ## Bodies that are read to their end -/

/-- What somebody has got of a body in some polls. -/
def Reading.ofPolls (polls : List Poll) : Reading := polls.foldl Reading.add Reading.start

/-- **A body as it is read to its end.** -/
def Body.readAll (b : Body) : Reading := Reading.ofPolls (b.pieces.map Piece.poll ++ [.ended])

def Body.HasTrailers (b : Body) : Prop := ∃ headers, Piece.frame (.trailers headers) ∈ b.pieces

/-- The pieces of a body come in order, and after them the end. -/
theorem Body.pollTimes_eq (b : Body) (n : Nat) :
    b.pollTimes n
      = ((b.pieces.map Piece.poll).take n ++ List.replicate (n - b.pieces.length) .ended,
      { b with pieces := b.pieces.drop n }) := by
  induction n with
  | zero => simp [pollTimes]
  | succ n ih =>
    rw [pollTimes, ih]
    dsimp only
    by_cases hlt : n < b.pieces.length
    · have hdrop : b.pieces.drop n = b.pieces[n] :: b.pieces.drop (n + 1) :=
        List.drop_eq_getElem_cons hlt
      have hnone : n - b.pieces.length = 0 := by omega
      have hnext : n + 1 - b.pieces.length = 0 := by omega
      have hmapped : n < (b.pieces.map Piece.poll).length := by rwa [List.length_map]
      rw [hdrop, hnone, hnext, List.take_succ_eq_append_getElem hmapped, List.getElem_map]
      simp [poll]
    · have hdrop : b.pieces.drop n = [] := List.drop_eq_nil_of_le (by omega)
      have hafter : b.pieces.drop (n + 1) = [] := List.drop_eq_nil_of_le (by omega)
      have hall : ∀ k, n ≤ k → (b.pieces.map Piece.poll).take k = b.pieces.map Piece.poll := by
        intro k hk
        exact List.take_of_length_le (by rw [List.length_map]; omega)
      have hcount : n + 1 - b.pieces.length = n - b.pieces.length + 1 := by omega
      rw [hdrop, hafter, hall n (Nat.le_refl n), hall (n + 1) (Nat.le_succ n), hcount,
        List.replicate_succ']
      simp [poll]

theorem Reading.foldl_ended (x : Reading) (n : Nat) :
    (List.replicate (n + 1) Poll.ended).foldl Reading.add x = { x with finished := true } := by
  induction n generalizing x with
  | zero => rfl
  | succ n ih => exact ih { x with finished := true }

/-- **Frames that are read** are their bytes, in order, and the last trailers among them;
they end nothing. -/
theorem Reading.foldl_frames {pieces : List Piece}
    (h : ∀ piece ∈ pieces, ∃ frame, piece = .frame frame) (x : Reading) :
    let y := (pieces.map Piece.poll).foldl Reading.add x
    y.data = x.data ++ pieces.flatMap Piece.bytes ∧ y.error = x.error ∧ y.finished = x.finished
      ∧ (y.trailers = none
          ↔ x.trailers = none ∧ ∀ headers, Piece.frame (.trailers headers) ∉ pieces) := by
  induction pieces generalizing x with
  | nil => simp
  | cons piece rest ih =>
    have hrest : ∀ piece ∈ rest, ∃ frame, piece = .frame frame := fun p hp =>
      h p (List.mem_cons_of_mem _ hp)
    obtain ⟨frame, rfl⟩ := h piece List.mem_cons_self
    obtain ⟨hdata, herror, hfinished, htrailers⟩ := ih hrest (x.add (.frame frame))
    cases frame with
    | data bytes =>
      refine ⟨?_, herror, hfinished, ?_⟩
      · rw [List.map_cons, List.foldl_cons, Piece.poll, hdata, List.flatMap_cons,
          ← List.append_assoc]
        rfl
      · rw [List.map_cons, List.foldl_cons, Piece.poll, htrailers]
        simp [Reading.add]
    | trailers headers =>
      refine ⟨?_, herror, hfinished, ?_⟩
      · rw [List.map_cons, List.foldl_cons, Piece.poll, hdata, List.flatMap_cons]
        rfl
      · rw [List.map_cons, List.foldl_cons, Piece.poll, htrailers]
        constructor
        · rintro ⟨hsome, -⟩
          cases hsome
        · rintro ⟨-, hnone⟩
          exact absurd List.mem_cons_self (hnone headers)

section

open Gatehouse.Pipeline

variable {b : Body}

/-- A body that can be read is read to its end by more polls than it has pieces, and by no fewer. -/
theorem finished_pollTimes_iff (h : Readable b) (n : Nat) :
    (Reading.ofPolls (b.pollTimes n).1).finished = true ↔ b.pieces.length < n := by
  rw [Body.pollTimes_eq, Reading.ofPolls, List.foldl_append]
  by_cases hlt : b.pieces.length < n
  · obtain ⟨k, hk⟩ : ∃ k, n - b.pieces.length = k + 1 := ⟨n - b.pieces.length - 1, by omega⟩
    rw [hk, Reading.foldl_ended]
    exact iff_of_true rfl hlt
  · have hnone : n - b.pieces.length = 0 := by omega
    have hread : ∀ piece ∈ b.pieces.take n, ∃ frame, piece = .frame frame := fun piece hpiece =>
      h piece (List.mem_of_mem_take hpiece)
    obtain ⟨-, -, hfinished, -⟩ := Reading.foldl_frames hread Reading.start
    rw [hnone, ← List.map_take, List.replicate_zero, List.foldl_nil, hfinished]
    exact iff_of_false Bool.false_ne_true hlt

/-- **Whoever has read a body to its end** has all of it. -/
theorem ofPolls_pollTimes {n : Nat} (hlt : b.pieces.length < n) :
    Reading.ofPolls (b.pollTimes n).1 = b.readAll := by
  obtain ⟨k, hk⟩ : ∃ k, n - b.pieces.length = k + 1 := ⟨n - b.pieces.length - 1, by omega⟩
  have hall : (b.pieces.map Piece.poll).take n = b.pieces.map Piece.poll :=
    List.take_of_length_le (by rw [List.length_map]; omega)
  rw [Body.pollTimes_eq, Reading.ofPolls, List.foldl_append, hk, hall,
    Reading.foldl_ended, Body.readAll, Reading.ofPolls, List.foldl_append]
  rfl

/-- What a body that can be read holds: its bytes, perhaps trailers, and no failure. -/
theorem readAll_eq (h : Readable b) :
    b.readAll
      = { data := bodyBytes b, trailers := b.readAll.trailers, error := none, finished := true }
      ∧ (b.readAll.trailers = none ↔ ¬b.HasTrailers) := by
  obtain ⟨hdata, herror, -, htrailers⟩ := Reading.foldl_frames h Reading.start
  have hall : b.readAll
      = { (b.pieces.map Piece.poll).foldl Reading.add Reading.start with finished := true } := by
    rw [Body.readAll, Reading.ofPolls, List.foldl_append]
    rfl
  rw [hall]
  constructor
  · dsimp only
    rw [hdata, herror]
    rfl
  · rw [htrailers, Body.HasTrailers, not_exists]
    exact and_iff_right rfl

/-- A body of bytes is read as these bytes. -/
theorem readAll_ofBytes (bytes : Bytes) :
    (Body.ofBytes bytes).readAll
      = { data := bytes, trailers := none, error := none, finished := true } := by
  cases bytes with
  | nil => rfl
  | cons first rest => rfl

theorem readable_ofBytes (bytes : Bytes) : Readable (Body.ofBytes bytes) := by
  cases bytes with
  | nil => exact fun piece hpiece => absurd hpiece List.not_mem_nil
  | cons first rest => exact fun piece hpiece => ⟨_, List.mem_singleton.1 hpiece⟩

/-- A body that is put together again has no more pieces than it had. -/
theorem length_ofBytes_le (b : Body) :
    (Body.ofBytes (bodyBytes b)).pieces.length ≤ b.pieces.length := by
  cases hpieces : b.pieces with
  | nil =>
    rw [bodyBytes, hpieces]
    exact Nat.le_refl 0
  | cons piece rest =>
    refine Nat.le_trans ?_ (Nat.succ_le_succ (Nat.zero_le rest.length))
    cases bodyBytes b with
    | nil => exact Nat.zero_le 1
    | cons first more => exact Nat.le_refl 1

end

end Http

namespace Pipeline

/-! ## Responses as a client gets them -/

/-- **A client is delivered a response:** its status, its headers in their order, and of its body
everything, as soon as the reading has come to an end. -/
structure Delivers (response : Response) (status : Status) (headers : Headers)
    (polls : List Poll) : Prop where
  status : status = response.status
  headers : headers = response.headers
  /-- Enough polls come to an end. -/
  ends : response.body.pieces.length < polls.length → (Reading.ofPolls polls).finished = true
  whole : (Reading.ofPolls polls).finished = true → Reading.ofPolls polls = response.body.readAll

/-- **A client gets a response that was put together again:** as it would be delivered, but
for the trailers. -/
structure Rebuilds (response : Response) (status : Status) (headers : Headers)
    (polls : List Poll) : Prop where
  status : status = response.status
  headers : headers = response.headers
  ends : response.body.pieces.length < polls.length → (Reading.ofPolls polls).finished = true
  stripped : (Reading.ofPolls polls).finished = true →
    Reading.ofPolls polls = { response.body.readAll with trailers := none }
  /-- That is all of the body exactly if it has no trailers. -/
  whole_iff : (Reading.ofPolls polls).finished = true →
    (Reading.ofPolls polls = response.body.readAll ↔ ¬response.body.HasTrailers)

section

variable {response : Response} {status : Status} {headers : Headers} {passage : Passage}
  {polls : List Poll}

/-- What the client of an answered visit has is one of the responses that there were for it. -/
theorem Visit.HandsOn.answer {returned : Except String Response → Prop}
    (h : HandsOn returned polls (.answered status headers passage)) :
    ∃ response, returned (.ok response) ∧ status = response.status ∧ headers = response.headers
      ∧ (response.body.pollTimes polls.length).1 = polls := by
  cases h with
  | answered response _ rest hreturned hrest hpolls =>
    exact ⟨response, hreturned, rfl, rfl, congrArg Prod.fst hpolls⟩

theorem delivers_of_polls (hreadable : Readable response.body)
    (hpolls : (response.body.pollTimes polls.length).1 = polls) :
    Delivers response response.status response.headers polls := by
  have hend := finished_pollTimes_iff hreadable polls.length
  rw [hpolls] at hend
  refine ⟨rfl, rfl, hend.2, fun hfinished => ?_⟩
  have hall := ofPolls_pollTimes (hend.1 hfinished)
  rwa [hpolls] at hall

theorem rebuilds_of_polls {record : Record} (hof : RecordOf record response)
    (hpolls : ((rebuilt record).body.pollTimes polls.length).1 = polls) :
    Rebuilds response (rebuilt record).status (rebuilt record).headers polls := by
  have hbody : (rebuilt record).body = Body.ofBytes (bodyBytes response.body) :=
    congrArg Body.ofBytes hof.body
  have hdelivered : Delivers (rebuilt record) (rebuilt record).status
      (rebuilt record).headers polls :=
    delivers_of_polls (readable_ofBytes record.body) hpolls
  obtain ⟨hall, htrailers⟩ := readAll_eq hof.readable
  have hstripped : { response.body.readAll with trailers := none }
      = (rebuilt record).body.readAll := by
    rw [hbody, readAll_ofBytes, hall]
  refine ⟨hof.status, ?_, fun hlt => hdelivered.ends ?_, fun hfinished => ?_, fun hfinished => ?_⟩
  · rw [rebuilt, hof.headers]
    exact response.headers.ofList_toList
  · rw [hbody]
    exact Nat.lt_of_le_of_lt (length_ofBytes_le response.body) hlt
  · rw [hstripped]
    exact hdelivered.whole hfinished
  · rw [hdelivered.whole hfinished, ← hstripped, ← htrailers, hall]
    simp [eq_comm]

end

namespace Gates

/-! ## Runs -/

/-- **What a response loses at the idempotency gate** is its trailers, and nothing else. On every
run, with any time to live of records, whatever the client of an answered visit has polled so far:
- if the visit has asked for a key and its handler has given a response that can be read, the client
  has that response, put together again;
- if the visit was shown a record, the record is that of a response which some handler has given and
  which can be read, and the client has that response, put together again;
- if the visit needs no key, and was not denied by its breaker, the client is delivered the response
  of the handler. -/
theorem deliveries_run (g : Guard) (config : Breaker.BreakerConfig) (ttlMs : Option Nat)
    (actions : List Action) {i : Nat} {u : Visit}
    (hu : ((start (World.start config ttlMs)).run g actions).visits[i]? = some u) {status : Status}
    {headers : Headers} {passage : Passage} (hplace : u.place = .answered status headers passage) :
    let s₀ := start (World.start config ttlMs)
    let polls := deliveredTo g i s₀ actions
    (∀ key response, u.AsksFor g key → Gave g s₀ actions i response → Readable response.body →
        Rebuilds response status headers polls)
      ∧ (∀ record waited, .replayed i record waited ∈ (s₀.run g actions).world.history →
        ∃ j response, .stored j record ∈ (s₀.run g actions).world.history
          ∧ Gave g s₀ actions j response
          ∧ Readable response.body ∧ Rebuilds response status headers polls)
      ∧ (g.needsKey u.policy = false → (∀ name, .denied i name ∉ (s₀.run g actions).world.history) →
        ∃ response, Gave g s₀ actions i response
          ∧ (Readable response.body → Delivers response status headers polls)) := by
  intro s₀ polls
  have hsourced := sourced_run g config ttlMs actions
  -- what is shown to the client is a record, and the client has what that was put together from
  have hshown : ∀ e record response, e ∈ (s₀.run g actions).world.history → e.visit = i →
      e.record? = some record → RecordOf record response →
        Rebuilds response status headers polls := by
    intro e record response he hvisit hrecord hof
    obtain ⟨-, hhas⟩ := handsOn_of_shown actions hu he hvisit hrecord
    rw [hplace] at hhas
    obtain ⟨given, hgiven, rfl, rfl, hpolls⟩ := hhas.answer
    cases hgiven
    exact rebuilds_of_polls hof hpolls
  refine ⟨?_, ?_, ?_⟩
  · intro key response hasks hgave hreadable
    rcases stored_of_gave actions hu hasks ⟨status, headers, passage, hplace⟩ hgave with
      ⟨record, hstored⟩ | hunreadable
    · obtain ⟨own, hown, hof⟩ := hsourced.stored i record ((mem_decisions_iff rfl).2 hstored)
      obtain ⟨-, honly⟩ := Gave.once actions hu response hgave
      rw [honly own hown] at hof
      exact hshown _ record response hstored rfl rfl hof
    · exact absurd hreadable hunreadable
  · intro record waited hreplayed
    obtain ⟨j, hstored⟩ := (traced_run g config ttlMs actions).shown _ record
      ((mem_decisions_iff rfl).2 hreplayed) rfl
    obtain ⟨response, hgave, hof⟩ := hsourced.stored j record hstored
    exact ⟨j, response, mem_history_of_mem_decisions hstored, hgave, hof.readable,
      hshown _ record response hreplayed rfl rfl hof⟩
  · intro hkey hdenied
    have hhas := handsOn_of_no_key actions hu hkey hdenied
    rw [hplace] at hhas
    obtain ⟨response, hgave, rfl, rfl, hpolls⟩ := hhas.answer
    exact ⟨response, hgave, fun hreadable => delivers_of_polls hreadable hpolls⟩

/-- A response with two frames of data, a repeated header, and trailers. -/
def trailedResponse : Response :=
  { status := ⟨200⟩
    headers := (Headers.empty.append ⟨"x-part"⟩ [97]).append ⟨"x-part"⟩ [98]
    body := Body.stream [.frame (.data [111]), .frame (.data [107]),
      .frame (.trailers (Headers.empty.append ⟨"grpc-status"⟩ [48]))] }

/-- An order comes twice and is answered so, and both clients read their answers to the end. -/
def trailedTwice : List Action :=
  [.arrive order none 0, .arrive order none 1, .reply 0 (.ok trailedResponse) 2, .absorb 0 3,
    .absorb 0 4, .absorb 0 5, .absorb 0 6, .deliver 0 7, .deliver 0 8, .resume 1 false 9,
    .deliver 1 10, .deliver 1 11]

/-- The handler of the first order has given the response, and it can be read. -/
theorem gave_trailedTwice :
    Gave idempotentGuard (start (World.start Breaker.BreakerConfig.standard none))
        trailedTwice 0 trailedResponse
      ∧ Readable trailedResponse.body := by
  constructor
  · have hplace :
        (Visit.arrive idempotentGuard (World.start Breaker.BreakerConfig.standard none)
          0 order none 0).2.place
        = .executing (.direct order.body Body.empty) := by
      cbv
    exact ⟨trailedTwice.take 2, 2, trailedTwice.drop 3, _, _, rfl, rfl, hplace⟩
  · intro piece hpiece
    simp only [trailedResponse, Body.stream, List.mem_cons, List.not_mem_nil, or_false] at hpiece
    rcases hpiece with rfl | rfl | rfl <;> exact ⟨_, rfl⟩

/-- A visit with an answer has one that its client reads. -/
theorem answered_of_answerOf? {v : Visit} {answer : Status × Bytes}
    (h : answerOf? v = some answer) :
    ∃ status headers passage, v.place = .answered status headers passage := by
  unfold answerOf? at h
  split at h
  · rename_i status headers passage hplace
    exact ⟨status, headers, passage, hplace⟩
  · cases h

theorem deliveries_run_trailedTwice :
    let s₀ := start (World.start Breaker.BreakerConfig.standard none)
    Gave idempotentGuard s₀ trailedTwice 0 trailedResponse ∧ Readable trailedResponse.body
      ∧ (∃ status headers,
          Rebuilds trailedResponse status headers (deliveredTo idempotentGuard 0 s₀ trailedTwice))
      ∧ (Reading.ofPolls (deliveredTo idempotentGuard 0 s₀ trailedTwice)).finished = true := by
  intro s₀
  obtain ⟨u, hu, hanswer, hneeds, hkey⟩ : ∃ u,
      (s₀.run idempotentGuard trailedTwice).visits[0]? = some u
      ∧ answerOf? u = some (⟨200⟩, []) ∧ idempotentGuard.needsKey u.policy = true
      ∧ Visit.key? idempotentGuard u.request = .ok "k" := by
    decide +kernel
  obtain ⟨status, headers, passage, hplace⟩ := answered_of_answerOf? hanswer
  obtain ⟨hgave, hreadable⟩ := gave_trailedTwice
  have hrebuilds :=
    (deliveries_run idempotentGuard Breaker.BreakerConfig.standard none trailedTwice hu hplace).1
      "k" trailedResponse ⟨hneeds, hkey⟩ hgave hreadable
  exact ⟨hgave, hreadable, ⟨status, headers, hrebuilds⟩, by decide +kernel⟩

/-- **Trailers are lost** for the visit whose response it is and for the one that it is replayed to,
where the body that the handler gave can be read to its end, and has them. Without the idempotency
layer the client has them. -/
theorem not_delivers_trailers :
    let s₀ := start (World.start Breaker.BreakerConfig.standard none)
    let bareGuard :=
      { idempotentGuard with
        layers := { breaker := false, idempotency := false, recording := false } }
    (Gave idempotentGuard s₀ trailedTwice 0 trailedResponse ∧ Readable trailedResponse.body)
      ∧ Reading.ofPolls (deliveredTo idempotentGuard 0 s₀ trailedTwice)
        = { data := [111, 107], trailers := none, error := none, finished := true }
      ∧ Reading.ofPolls (deliveredTo idempotentGuard 1 s₀ trailedTwice)
        = { data := [111, 107], trailers := none, error := none, finished := true }
      ∧ Reading.ofPolls (deliveredTo bareGuard 0 s₀
          [.arrive order none 0, .reply 0 (.ok trailedResponse) 1, .deliver 0 2,
            .deliver 0 3, .deliver 0 4, .deliver 0 5]) = trailedResponse.body.readAll
      ∧ trailedResponse.body.readAll
        = { data := [111, 107], trailers := some (Headers.empty.append ⟨"grpc-status"⟩ [48]),
            error := none, finished := true } := by
  intro s₀ bareGuard
  refine ⟨gave_trailedTwice, ?_, ?_, ?_, rfl⟩
  · decide +kernel
  · decide +kernel
  · decide +kernel

end Gates
end Pipeline
end Gatehouse
