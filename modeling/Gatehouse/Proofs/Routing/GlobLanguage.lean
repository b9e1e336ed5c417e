/-
The language of a glob, and what the one-pass search decides.

A glob is documented by what may be produced from it: every `*` is replaced by some run of bytes,
every `?` by one byte, and everything else stays. `Produces` is that relation, with one parameter:
which runs a star may be replaced by at its place (`StarRule`). Under `anyRun` every run is allowed,
which is the documented language. Under `literalFirst` a star that faces the byte `*` has to be
replaced by exactly that byte.

The search `globFrom` decides the second language, not the first (`globMatches_eq_true_iff`). Two
things have to be seen for that. A pattern byte that fits the next text byte is always used up at
once, so every derivation has to do the same (`produces_cons_iff_of_fits`). And the search only
remembers the last star: it never gives an earlier star more text. `exists_drop_of_consumed` is why
nothing is lost by this: whatever a longer run of an earlier star could reach behind the last star
is a suffix of what the last star can reach.
-/
import Mathlib.Data.List.Forall2
import Gatehouse.Routing.Pattern

set_option autoImplicit false

namespace Gatehouse.Routing

/-! ## The language -/

/-- Which runs a star may stand for, given the run and the text behind it. -/
abbrev StarRule := Bytes → Bytes → Prop

def anyRun : StarRule := fun _ _ => True

/-- A star that faces the byte `*` stands for that byte alone; everywhere else every
run is allowed. -/
def literalFirst : StarRule := fun run rest => (run ++ rest).head? = some star → run = [star]

/-- **The texts that a glob produces:** each star is replaced by a run that the rule allows, each
question mark by any byte, and every other byte stays. -/
inductive Produces (rule : StarRule) : Bytes → Bytes → Prop
  | done : Produces rule [] []
  | run {ps rest : Bytes} (run : Bytes) :
      rule run rest → Produces rule ps rest → Produces rule (star :: ps) (run ++ rest)
  | single {ps rest : Bytes} (c : UInt8) :
      Produces rule ps rest → Produces rule (anyByte :: ps) (c :: rest)
  | same {p : UInt8} {ps rest : Bytes} :
      p ≠ star → p ≠ anyByte → Produces rule ps rest → Produces rule (p :: ps) (p :: rest)

/-- What a glob produces under one rule it produces under every weaker one. -/
theorem Produces.mono {rule rule' : StarRule} (h : ∀ run rest, rule run rest → rule' run rest)
    {pattern text : Bytes} (hp : Produces rule pattern text) : Produces rule' pattern text := by
  induction hp with
  | done => exact .done
  | run run hrun _ ih => exact .run run (h run _ hrun) ih
  | single c _ ih => exact .single c ih
  | same hstar hany _ ih => exact .same hstar hany ih

/-- In a text without the byte `*` no star ever faces one, so the two rules give the same. -/
theorem Produces.literalFirst_of_notMem {pattern text : Bytes} (hp : Produces anyRun pattern text)
    (htext : star ∉ text) : Produces literalFirst pattern text := by
  induction hp with
  | done => exact .done
  | run run _ _ ih =>
    refine .run run (fun hhead => ?_) (ih fun h => htext (List.mem_append_right _ h))
    exact absurd (List.mem_of_mem_head? hhead) htext
  | single c _ ih => exact .single c (ih fun h => htext (List.mem_cons_of_mem _ h))
  | same hstar hany _ ih => exact .same hstar hany (ih fun h => htext (List.mem_cons_of_mem _ h))

/-! ## One byte of the pattern -/

/-- A pattern byte that is used up by a text byte without being taken for a star. -/
def Fits (p c : UInt8) : Prop := p = anyByte ∨ p = c

theorem star_ne_anyByte : star ≠ anyByte := by decide

/-- A byte that fits is always used up: even a star, when the text has the byte `*` in its place. -/
theorem produces_cons_iff_of_fits {p c : UInt8} (h : Fits p c) {ps rest : Bytes} :
    Produces literalFirst (p :: ps) (c :: rest) ↔ Produces literalFirst ps rest := by
  constructor
  · intro hp
    generalize htext : c :: rest = text at hp
    cases hp with
    | @run _ tail run hrun htail =>
      -- a star that fits faces the byte `*`, so the rule leaves it no other run
      have hc : c = star := (h.resolve_left star_ne_anyByte).symm
      have hone : run = [star] := hrun (by rw [← htext, hc]; rfl)
      rw [hone] at htext
      obtain ⟨-, rfl⟩ := List.cons.inj htext
      exact htail
    | single _ htail =>
      obtain ⟨-, rfl⟩ := List.cons.inj htext
      exact htail
    | same _ _ htail =>
      obtain ⟨-, rfl⟩ := List.cons.inj htext
      exact htail
  · intro hp
    -- the byte may be all three: `?`, `*` before a `*`, or itself
    by_cases hany : p = anyByte
    · rw [hany]
      exact .single c hp
    · obtain rfl := h.resolve_left hany
      by_cases hstar : p = star
      · rw [hstar]
        exact .run [star] (fun _ => rfl) hp
      · exact .same hstar hany hp

/-- A byte that neither fits nor is a star produces nothing. -/
theorem not_produces_cons_of_misfit {rule : StarRule} {p c : UInt8} (h : ¬Fits p c)
    (hstar : p ≠ star) {ps rest : Bytes} : ¬Produces rule (p :: ps) (c :: rest) := by
  intro hp
  -- `cases` needs a variable for the text: the one of `run` is an append
  generalize htext : c :: rest = text at hp
  cases hp with
  | run => exact hstar rfl
  | single => exact h (.inl rfl)
  | same => exact h (.inr (List.cons.inj htext).1.symm)

theorem not_produces_nil_cons {rule : StarRule} {c : UInt8} {rest : Bytes} :
    ¬Produces rule [] (c :: rest) := nofun

/-- Whatever follows the first pattern byte produces some suffix of the text. -/
theorem exists_drop_of_produces_cons {rule : StarRule} {p : UInt8} {ps text : Bytes}
    (hp : Produces rule (p :: ps) text) : ∃ k, Produces rule ps (text.drop k) := by
  cases hp with
  | run run _ htail => exact ⟨run.length, by rwa [List.drop_left]⟩
  | single _ htail => exact ⟨1, htail⟩
  | same _ _ htail => exact ⟨1, htail⟩

/-- A star that faces another byte than `*` may take any run. -/
theorem produces_star_iff {ps rest : Bytes} {c : UInt8} (hc : c ≠ star) :
    Produces literalFirst (star :: ps) (c :: rest)
      ↔ ∃ k, Produces literalFirst ps ((c :: rest).drop k) := by
  refine ⟨exists_drop_of_produces_cons, fun ⟨k, hk⟩ => ?_⟩
  -- the run is what was dropped; it may be empty, and then the star still faces `c`
  rw [← List.take_append_drop k (c :: rest)]
  refine .run _ (fun hhead => ?_) hk
  rw [List.take_append_drop] at hhead
  exact absurd (Option.some.inj hhead) hc

/-- The empty text is produced by stars alone. -/
theorem produces_nil_iff {pattern : Bytes} :
    Produces literalFirst pattern [] ↔ pattern.all (· == star) = true := by
  induction pattern with
  | nil => simp [Produces.done]
  | cons p ps ih =>
    rw [List.all_cons, Bool.and_eq_true, beq_iff_eq, ← ih]
    constructor
    · intro hp
      generalize htext : ([] : Bytes) = text at hp
      cases hp with
      | @run _ rest run _ htail =>
        obtain ⟨hrun, hrest⟩ := List.nil_eq_append_iff.1 htext
        subst hrun hrest
        exact ⟨rfl, htail⟩
      | single => cases htext
      | same => cases htext
    · rintro ⟨rfl, hp⟩
      exact .run [] (fun hhead => by simp at hhead) hp

/-! ## What the search has used up -/

theorem produces_append_iff_of_fits {used given : Bytes} (h : List.Forall₂ Fits used given)
    {ps rest : Bytes} :
    Produces literalFirst (used ++ ps) (given ++ rest) ↔ Produces literalFirst ps rest := by
  induction h with
  | nil => exact Iff.rfl
  | cons hfits _ ih =>
    rw [List.cons_append, List.cons_append, produces_cons_iff_of_fits hfits, ih]

/-- **What giving an earlier star more text can reach.** If the pattern bytes `used` were used up
by `given`, then producing any suffix of the text with them leaves a suffix of the rest to what
follows them. The induction is on the bytes used up; a derivation over a shorter text uses up at
most as much of it. -/
theorem exists_drop_of_consumed {used given : Bytes} (h : List.Forall₂ Fits used given)
    {ps rest : Bytes} (k : Nat)
    (hp : Produces literalFirst (used ++ ps) ((given ++ rest).drop k)) :
    ∃ j, Produces literalFirst ps (rest.drop j) := by
  induction h generalizing k with
  | nil => exact ⟨k, hp⟩
  | @cons p c used given hfits _ ih =>
    cases k with
    | zero => exact ih 0 ((produces_cons_iff_of_fits hfits).1 hp)
    | succ k =>
      have hdrop : ((c :: given) ++ rest).drop (k + 1) = (given ++ rest).drop k := rfl
      rw [hdrop] at hp
      -- `p` takes `i` more bytes, so what follows it starts `k + i` bytes into the shorter text
      obtain ⟨i, hi⟩ := exists_drop_of_produces_cons hp
      rw [List.drop_drop] at hi
      exact ih (k + i) hi

/-! ## The search -/

/-- What holds between the pattern that is left and the last star: the bytes behind the star that
are no longer left have been used up by the text given to it. -/
def LastStar.Consistent (ps : Bytes) : Option LastStar → Prop
  | none => True
  | some l => ∃ used, l.after = used ++ ps ∧ List.Forall₂ Fits used l.given

/-- What a search can still find: without a star the pattern has to produce the text that is left;
with one, what follows the star may start anywhere in the text since. -/
def LastStar.Reaches (ps rest : Bytes) : Option LastStar → Prop
  | none => Produces literalFirst ps rest
  | some l => ∃ k, Produces literalFirst l.after ((l.given ++ rest).drop k)

theorem LastStar.Consistent.push {p c : UInt8} {ps : Bytes} (hfits : Fits p c)
    {last : Option LastStar} (h : LastStar.Consistent (p :: ps) last) :
    LastStar.Consistent ps (last.map fun l => { l with given := l.given ++ [c] }) := by
  cases last with
  | none => trivial
  | some l =>
    obtain ⟨used, hafter, hused⟩ := h
    refine ⟨used ++ [p], ?_, List.rel_append hused (.cons hfits .nil)⟩
    rw [List.append_assoc, List.singleton_append]
    exact hafter

theorem LastStar.reaches_push_iff {p c : UInt8} {ps rest : Bytes} (hfits : Fits p c)
    {last : Option LastStar} :
    LastStar.Reaches ps rest (last.map fun l => { l with given := l.given ++ [c] })
      ↔ LastStar.Reaches (p :: ps) (c :: rest) last := by
  cases last with
  | none => exact (produces_cons_iff_of_fits hfits).symm
  | some l =>
    simp only [LastStar.Reaches, Option.map_some, List.append_assoc, List.singleton_append]

/-- If the pattern that is left can make up for any text that is skipped, the last star has
nothing to offer. -/
theorem LastStar.reaches_iff_of_absorbs {ps rest : Bytes} {last : Option LastStar}
    (h : LastStar.Consistent ps last)
    (habsorb : ∀ j, Produces literalFirst ps (rest.drop j) → Produces literalFirst ps rest) :
    LastStar.Reaches ps rest last ↔ Produces literalFirst ps rest := by
  cases last with
  | none => exact Iff.rfl
  | some l =>
    obtain ⟨used, hafter, hused⟩ := h
    constructor
    · rintro ⟨k, hk⟩
      rw [hafter] at hk
      obtain ⟨j, hj⟩ := exists_drop_of_consumed hused k hk
      exact habsorb j hj
    · intro hp
      refine ⟨0, ?_⟩
      rw [hafter, List.drop_zero, produces_append_iff_of_fits hused]
      exact hp

/-- When what follows the last star cannot start where it is tried, it has to start later. -/
theorem LastStar.reaches_shift_iff {ps rest : Bytes} {c : UInt8} {l : LastStar}
    (h : LastStar.Consistent ps (some l)) (hstuck : ¬Produces literalFirst ps (c :: rest)) :
    LastStar.Reaches l.after ((l.given ++ c :: rest).drop 1)
      (some { after := l.after, given := [] })
      ↔ LastStar.Reaches ps (c :: rest) (some l) := by
  obtain ⟨used, hafter, hused⟩ := h
  simp only [LastStar.Reaches, List.nil_append, List.drop_drop]
  constructor
  · rintro ⟨k, hk⟩
    exact ⟨1 + k, hk⟩
  · rintro ⟨k, hk⟩
    -- `k = 0` is the place where the search stands now, and that one is stuck
    cases k with
    | zero =>
      rw [hafter, List.drop_zero, produces_append_iff_of_fits hused] at hk
      exact absurd hk hstuck
    | succ k => exact ⟨k, by rwa [Nat.add_comm 1 k]⟩

/-- **The search finds what can be reached.** -/
theorem globFrom_eq_true_iff (pattern text : Bytes) (last : Option LastStar)
    (h : LastStar.Consistent pattern last) :
    globFrom pattern text last = true ↔ LastStar.Reaches pattern text last := by
  induction pattern, text, last using globFrom.induct with
  | case1 pattern last =>
    -- the end of the text: what is left has to be stars
    rw [globFrom, ← produces_nil_iff, LastStar.reaches_iff_of_absorbs h]
    intro j hj
    rwa [List.drop_nil] at hj
  | case2 last c rest p ps hfits ih =>
    -- the byte is used up
    have hfit : Fits p c := by simpa [Fits] using hfits
    rw [globFrom.eq_def]
    dsimp only
    rw [if_pos hfits, ih (h.push hfit)]
    exact LastStar.reaches_push_iff hfit
  | case3 last c rest p ps hmisfit hstar ih =>
    -- a new star, which takes over all that the last one could reach
    have hc : c ≠ star := fun hc => hmisfit (by rw [beq_iff_eq.1 hstar, hc]; simp)
    rw [globFrom.eq_def]
    dsimp only
    rw [if_neg hmisfit, if_pos hstar, ih ⟨[], rfl, .nil⟩]
    obtain rfl := beq_iff_eq.1 hstar
    rw [LastStar.reaches_iff_of_absorbs h]
    · exact (produces_star_iff hc).symm
    · intro j hj
      obtain ⟨i, hi⟩ := exists_drop_of_produces_cons hj
      rw [List.drop_drop] at hi
      exact (produces_star_iff hc).2 ⟨j + i, hi⟩
  | case4 c rest p ps hmisfit hstar =>
    -- stuck, and no star to go back to
    have hstuck : ¬Produces literalFirst (p :: ps) (c :: rest) :=
      not_produces_cons_of_misfit (by simpa [Fits] using hmisfit) (by simpa using hstar)
    rw [globFrom.eq_def]
    dsimp only
    rw [if_neg hmisfit, if_neg hstar]
    exact ⟨nofun, fun hp => absurd hp hstuck⟩
  | case5 c rest p ps hmisfit hstar l ih =>
    -- stuck: the last star takes one byte more
    have hstuck : ¬Produces literalFirst (p :: ps) (c :: rest) :=
      not_produces_cons_of_misfit (by simpa [Fits] using hmisfit) (by simpa using hstar)
    rw [globFrom.eq_def]
    dsimp only
    rw [if_neg hmisfit, if_neg hstar, ih ⟨[], rfl, .nil⟩]
    exact LastStar.reaches_shift_iff h hstuck
  | case6 c rest =>
    -- the pattern has come to its end before the text, without and with a star
    rw [globFrom.eq_def]
    exact ⟨nofun, fun hp => absurd hp not_produces_nil_cons⟩
  | case7 c rest l ih =>
    rw [globFrom.eq_def]
    dsimp only
    rw [ih ⟨[], rfl, .nil⟩]
    exact LastStar.reaches_shift_iff h not_produces_nil_cons

/-- **A glob accepts exactly what it produces** when a star that faces the byte `*` is
replaced by that byte. -/
theorem globMatches_eq_true_iff (pattern text : Bytes) :
    globMatches pattern text = true ↔ Produces literalFirst pattern text :=
  globFrom_eq_true_iff pattern text none trivial

end Gatehouse.Routing
