import PluginBridge.Browser.PrivateStorage
import PluginBridge.Proofs.Session.Course

/-!
# Dialogues with a browser that changes

Between two queries of a dialogue the browser may change, so one query may get different answers.
`Dialogue.Goes` follows a dialogue through any answers that may be given, and keeps the queries in
the order in which they are asked.

* `Dialogue.goes_fixed_iff`: where no answer changes, there is one way;
* `Dialogue.ensuresIn_future`: whatever polls bring of a dialogue, one of its ways ends with it;
* `Future.exists_answer?`: a computation that is polled for long enough is answered.
-/

namespace PluginBridge

namespace Future

variable {ω α β : Type} {worlds : List ω} {P : α → Prop} {Q : β → Prop}

/-- As long as the polls find some of `worlds`, a value that they bring satisfies `P`. -/
def EnsuresIn (worlds : List ω) (P : α → Prop) : Future ω α → Prop
  | ready value => P value
  | poll next => ∀ world ∈ worlds, (next world).EnsuresIn worlds P

theorem EnsuresIn.step {future : Future ω α} (h : future.EnsuresIn worlds P) {world : ω}
    (hworld : world ∈ worlds) : (future.step world).EnsuresIn worlds P := by
  cases future with
  | ready value => exact h
  | poll next => exact h world hworld

theorem EnsuresIn.mono {P Q : α → Prop} {future : Future ω α} (h : future.EnsuresIn worlds P)
    (hPQ : ∀ value, P value → Q value) : future.EnsuresIn worlds Q := by
  induction future with
  | ready value => exact hPQ value h
  | poll next ih => exact fun world hworld => ih world (h world hworld)

theorem EnsuresIn.resume {future : Future ω α} {f : α → Future ω β}
    (h : future.EnsuresIn worlds P) (hf : ∀ value, P value → (f value).EnsuresIn worlds Q)
    {world : ω} (hworld : world ∈ worlds) : (future.resume f world).EnsuresIn worlds Q := by
  induction future generalizing world with
  | ready value => exact (hf value h).step hworld
  | poll next ih => exact fun next hnext => ih next (h next hnext) hnext

theorem EnsuresIn.andThen {future : Future ω α} {f : α → Future ω β}
    (h : future.EnsuresIn worlds P) (hf : ∀ value, P value → (f value).EnsuresIn worlds Q) :
    (future.andThen f).EnsuresIn worlds Q := by
  cases future with
  | ready value => exact hf value h
  | poll next => exact fun world hworld => (h world hworld).resume hf hworld

theorem ensuresIn_delayed {value : α} (h : P value) (polls : Nat) :
    (delayed polls value : Future ω α).EnsuresIn worlds P := by
  induction polls with
  | zero => exact h
  | succ polls ih => exact fun world hworld => ih

theorem EnsuresIn.steps {future : Future ω α} (h : future.EnsuresIn worlds P) {polled : List ω}
    (hpolled : ∀ world ∈ polled, world ∈ worlds) : (future.steps polled).EnsuresIn worlds P := by
  induction polled generalizing future with
  | nil => exact h
  | cons world rest ih =>
    obtain ⟨hworld, hrest⟩ := List.forall_mem_cons.1 hpolled
    exact ih (h.step hworld) hrest

theorem EnsuresIn.of_answer? {future : Future ω α} (h : future.EnsuresIn worlds P) {value : α}
    (hanswer : future.answer? worlds = some value) : P value := by
  have hvalue : (future.steps worlds).value? = some value := by
    rw [answer?] at hanswer
    split at hanswer
    · cases hanswer
    · exact hanswer
  have hsteps := h.steps fun world hworld => hworld
  rwa [eq_ready_of_value? hvalue] at hsteps

/-- **Polling ends.**  In every course of the world there is an answer after some polls. -/
theorem exists_answer? (future : Future ω α) (course : Nat → ω) :
    ∃ polls, (future.answer? ((List.range polls).map course)).isSome := by
  induction future generalizing course with
  | ready value => exact ⟨1, rfl⟩
  | poll next ih =>
    -- After the first poll the course goes on from the second world.
    obtain ⟨polls, hanswer⟩ := ih (course 0) fun i => course (i + 1)
    refine ⟨polls + 1, ?_⟩
    rw [answer?] at hanswer
    split at hanswer
    · cases hanswer
    · rw [List.range_succ_eq_map, List.map_cons, List.map_map]
      exact hanswer

end Future

namespace Browser

variable {η ω α β : Type}

/-- The outcomes that a browser may give to a query in some worlds. -/
def StorageApi.MayAnswer (api : StorageApi η ω) (worlds : List ω) (query : Query η)
    (outcome : Except Value (Settled η)) : Prop :=
  ∃ world ∈ worlds, (api.answer world query).outcome = outcome

namespace Dialogue

variable {may : Query η → Except Value (Settled η) → Prop}

/-- A way that a dialogue can go: the queries that are asked, in order, and the result. -/
inductive Goes (may : Query η → Except Value (Settled η) → Prop) :
    Dialogue η α → List (Query η) → α → Prop where
  | done (result : α) : Goes may (.done result) [] result
  | ask {query : Query η} {next : Except Value (Settled η) → Dialogue η α}
      {answer : Except Value (Settled η)} {asked : List (Query η)} {result : α}
      (hanswer : may query answer) (hnext : Goes may (next answer) asked result) :
      Goes may (.ask query next) (query :: asked) result

/-- With fixed answers there is one way to go: `queries` are asked, and `result` is the end. -/
theorem goes_fixed_iff {answer : Query η → Except Value (Settled η)} {dialogue : Dialogue η α}
    {asked : List (Query η)} {result : α} :
    Goes (fun query outcome => answer query = outcome) dialogue asked result ↔
      asked = dialogue.queries answer ∧ result = dialogue.result answer := by
  constructor
  · intro h
    induction h with
    | done result => exact ⟨rfl, rfl⟩
    | ask hanswer hnext ih =>
      subst hanswer
      exact ⟨congrArg (_ :: ·) ih.1, ih.2⟩
  · rintro ⟨rfl, rfl⟩
    induction dialogue with
    | done result => exact .done result
    | ask query next ih => exact .ask rfl (ih (answer query))

theorem Goes.of_andThen {dialogue : Dialogue η α} {f : α → Dialogue η β}
    {asked : List (Query η)} {result : β} (h : Goes may (dialogue.andThen f) asked result) :
    ∃ first value later, Goes may dialogue first value ∧ Goes may (f value) later result ∧
      asked = first ++ later := by
  induction dialogue generalizing asked with
  | done value => exact ⟨[], value, asked, .done value, h, rfl⟩
  | ask query next ih =>
    cases h with
    | ask hanswer hnext =>
      obtain ⟨first, value, later, hfirst, hlater, rfl⟩ := ih _ hnext
      exact ⟨query :: first, value, later, .ask hanswer hfirst, hlater, rfl⟩

/-- After a failure nothing more is asked. -/
theorem Goes.of_onSuccess {dialogue : Dialogue η (Except Value α)}
    {f : α → Dialogue η (Except Value β)} {asked : List (Query η)} {result : Except Value β}
    (h : Goes may (dialogue.onSuccess f) asked result) :
    (∃ value, Goes may dialogue asked (.error value) ∧ result = .error value) ∨
    ∃ first value later, Goes may dialogue first (.ok value) ∧ Goes may (f value) later result ∧
      asked = first ++ later := by
  obtain ⟨first, outcome, later, hfirst, hlater, rfl⟩ := Goes.of_andThen h
  cases outcome with
  | ok value => exact .inr ⟨first, value, later, hfirst, hlater, rfl⟩
  | error value =>
    cases hlater
    rw [List.append_nil]
    exact .inl ⟨value, hfirst, rfl⟩

/-- A dialogue of one query. -/
theorem Goes.of_expect {query : Query η} {take : Settled η → Except Value α}
    {asked : List (Query η)} {result : Except Value α}
    (h : Goes may (expect query take) asked result) :
    ∃ answer, may query answer ∧ asked = [query] ∧ result = answer.bind take := by
  cases h with
  | ask hanswer hnext =>
    cases hnext
    exact ⟨_, hanswer, rfl, rfl⟩

/-- **Polls go one of the ways.**  A dialogue that is polled in some worlds ends as it may go with
the answers of these worlds. -/
theorem ensuresIn_future (api : StorageApi η ω) (worlds : List ω) (dialogue : Dialogue η α) :
    (dialogue.future api).EnsuresIn worlds fun result =>
      ∃ asked, Goes (api.MayAnswer worlds) dialogue asked result := by
  induction dialogue with
  | done result => exact ⟨[], .done result⟩
  | ask query next ih =>
    have hawait : (await fun world => api.answer world query).EnsuresIn worlds
        (api.MayAnswer worlds query) :=
      fun world hworld => Future.ensuresIn_delayed ⟨world, hworld, rfl⟩ _
    refine hawait.andThen fun answer hanswer => ?_
    refine (ih answer).mono fun result hgoes => ?_
    obtain ⟨asked, hgoes⟩ := hgoes
    exact ⟨query :: asked, .ask hanswer hgoes⟩

end Dialogue

end Browser

end PluginBridge
