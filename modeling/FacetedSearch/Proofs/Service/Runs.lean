import FacetedSearch.Proofs.PriceCache
import FacetedSearch.Proofs.Service

/-!
# A service over whole runs

Searches and questions for price axes may follow each other in any order, each with an engine or a
source of its own and each at its own time. All that a run changes is what is remembered. A search
does not depend on that and leaves it, even one that crashes, so it goes as on a new service. As
long as nothing that is remembered lives out its time, a question asks the source for a scope that
no question before it has loaded, and for no other; whatever becomes of the axis, a price that was
loaded stays.
-/

namespace FacetedSearch.Service

open OrderedMap

/-- One step of a run, with the engine or the source that answers in it. -/
inductive Step where
  | search (engine : EngineCall → Except Fault EngineResult) (request : SearchRequest)
  | axis (source : Scope → Except Fault Float) (moment : Moment) (scope : Scope) (maxTicks : ℕ)

/-- What can be seen of a step: the calls and the answer of a search; of a question for an axis when
it was, what the source was asked for, with what it gave, and the answer. -/
inductive Event where
  | search (calls : List EngineCall) (answer : Outcome Fault Response)
  | axis (moment : Moment) (loads : List (Scope × Except Fault Float))
      (answer : Except Fault (Option (Scale.Axis Float)))

/-- What is seen of a step, and the service after it. -/
def perform (s : Service) : Step → Event × Service
  | .search engine r =>
    let exchange := s.search engine r
    (.search exchange.calls exchange.answer, exchange.service)
  | .axis source moment scope maxTicks =>
    let found := s.priceAxis source moment scope maxTicks
    (.axis moment (found.asked.map fun scope => (scope, source scope)) found.answer, found.service)

/-- The service as it is when it is new. -/
def renewed (s : Service) : Service :=
  { s with prices := .ofSeconds s.config.priceCacheSeconds }

/-- A new service after a run of steps, the latest step first. -/
def after (s : Service) : List Step → Service
  | [] => s.renewed
  | step :: earlier => ((s.after earlier).perform step).2

/-- What was seen of a run, the latest event first. -/
def history (s : Service) : List Step → List Event
  | [] => []
  | step :: earlier => ((s.after earlier).perform step).1 :: s.history earlier

/-- In one of the events the source was asked for the scope and gave the price. -/
def Loaded (scope : Scope) (e : PriceEntry) (events : List Event) : Prop :=
  ∃ moment loads answer, .axis moment loads answer ∈ events ∧ (scope, .ok e.price) ∈ loads ∧
    e.loadedAt = moment.answered

/-- Whenever the run asked for an axis, no price of its scope that was loaded before had lived out
its time. -/
def NeverStale (s : Service) : List Step → Prop
  | [] => True
  | .search _ _ :: earlier => s.NeverStale earlier
  | .axis _ moment scope _ :: earlier =>
    (∀ e, Loaded scope e (s.history earlier) →
      moment.asked - e.loadedAt < s.config.priceCacheSeconds * 1000000000) ∧ s.NeverStale earlier

/-- The axis from zero to a price. -/
def slider (price : Float) (maxTicks : ℕ) : Except Fault (Scale.Axis Float) :=
  (Scale.axis 0 price maxTicks).mapError .ofScale

/-- The answer for a price: none unless it is a positive number. -/
def axisFor (price : Float) (maxTicks : ℕ) : Except Fault (Option (Scale.Axis Float)) :=
  if price.isNaN = true ∨ price ≤ 0 then .ok none else (slider price maxTicks).map some

theorem axisFor_eq_none_iff {price : Float} {maxTicks : ℕ} :
    axisFor price maxTicks = .ok none ↔ price.isNaN = true ∨ price ≤ 0 := by
  unfold axisFor
  split_ifs with h
  · exact iff_of_true rfl h
  · refine iff_of_false (fun heq => ?_) h
    cases hslider : slider price maxTicks <;> simp [hslider, Except.map] at heq

theorem axisFor_eq_slider {price : Float} (h : ¬ (price.isNaN = true ∨ price ≤ 0))
    (maxTicks : ℕ) : axisFor price maxTicks = (slider price maxTicks).map some :=
  if_neg h

section Steps

variable (s : Service) (source : Scope → Except Fault Float) (moment : Moment) (scope : Scope)
  (maxTicks : ℕ)

/-- With a source a question is answered for the price that the cache or the source gives. -/
theorem priceAxis_of_source {s : Service} (hsource : s.hasPriceSource = true) :
    s.priceAxis source moment scope maxTicks =
      let found := s.prices.getOrLoad scope source moment
      { answer := found.answer.bind (axisFor · maxTicks)
        asked := found.asked.toList
        service := { s with prices := found.cache } } := by
  unfold priceAxis
  rw [if_pos hsource]
  dsimp only
  cases (s.prices.getOrLoad scope source moment).answer with
  | error fault => rfl
  | ok price =>
      have hcondition : (price.isNaN || decide (price ≤ 0)) = true ↔
          price.isNaN = true ∨ price ≤ 0 := by simp
      simp only [bind, Except.bind, axisFor, slider, hcondition]
      cases Scale.axis 0 price maxTicks <;> rfl

/-- All that a question for an axis can do: refuse without a source, take the remembered price, or
ask the source and remember what it gives. -/
theorem priceAxis_cases :
    (s.hasPriceSource = false ∧ s.priceAxis source moment scope maxTicks =
      { answer := .error (.config "no max price source installed"), asked := [], service := s }) ∨
    s.hasPriceSource = true ∧
      ((∃ price, s.prices.fresh? scope moment.asked = some price ∧
        s.priceAxis source moment scope maxTicks =
          { answer := axisFor price maxTicks, asked := [], service := s }) ∨
      s.prices.fresh? scope moment.asked = none ∧
        ((∃ price, source scope = .ok price ∧ s.priceAxis source moment scope maxTicks =
          { answer := axisFor price maxTicks
            asked := [scope]
            service := { s with prices := { s.prices with
              entries := s.prices.entries.insert scope ⟨moment.answered, price⟩ } } }) ∨
        ∃ fault, source scope = .error fault ∧ s.priceAxis source moment scope maxTicks =
          { answer := .error fault, asked := [scope], service := s })) := by
  by_cases hsource : s.hasPriceSource = true
  · refine .inr ⟨hsource, ?_⟩
    rw [priceAxis_of_source source moment scope maxTicks hsource]
    obtain ⟨price, hfresh, he⟩ | ⟨hfresh, ⟨price, hgiven, he⟩ | ⟨fault, hgiven, he⟩⟩ :=
      s.prices.getOrLoad_cases scope source moment
    · exact .inl ⟨price, hfresh, by rw [he]; rfl⟩
    · exact .inr ⟨hfresh, .inl ⟨price, hgiven, by rw [he]; rfl⟩⟩
    · exact .inr ⟨hfresh, .inr ⟨fault, hgiven, by rw [he]; rfl⟩⟩
  · exact .inl ⟨Bool.not_eq_true _ ▸ hsource, by rw [priceAxis, if_neg hsource]⟩

/-- What a search calls and answers does not depend on what is remembered, and it is left. -/
theorem search_of_prices (prices : PriceCache) (engine : EngineCall → Except Fault EngineResult)
    (r : SearchRequest) :
    let exchange := { s with prices }.search engine r
    exchange.calls = (s.search engine r).calls ∧ exchange.answer = (s.search engine r).answer ∧
      exchange.service = { s with prices } := by
  obtain ⟨fault, hp, he⟩ | ⟨p, hp, ⟨hcall, he⟩ | ⟨call, hcall, he⟩⟩ :=
    s.search_cases engine r <;> rw [he]
  · rw [search_of_invalid engine hp]
    exact ⟨rfl, rfl, rfl⟩
  · have hcall' : callFor? { s with prices } r p = none := hcall
    rw [search_of_crash engine hp hcall']
    exact ⟨rfl, rfl, rfl⟩
  · have hcall' : callFor? { s with prices } r p = some call := hcall
    rw [search_of_call engine hp hcall']
    exact ⟨rfl, rfl, rfl⟩

/-- All that a step changes is what is remembered, and not how long. -/
theorem exists_entries_of_perform (step : Step) :
    ∃ entries, (s.perform step).2 = { s with prices := { s.prices with entries } } := by
  cases step with
  | search engine r => exact ⟨s.prices.entries, (s.search_of_prices s.prices engine r).2.2⟩
  | axis source moment scope maxTicks =>
      obtain ⟨-, he⟩ | ⟨-, ⟨price, -, he⟩ | ⟨-, ⟨price, -, he⟩ | ⟨fault, -, he⟩⟩⟩ :=
        s.priceAxis_cases source moment scope maxTicks <;> rw [perform, he]
      · exact ⟨s.prices.entries, rfl⟩
      · exact ⟨s.prices.entries, rfl⟩
      · exact ⟨_, rfl⟩
      · exact ⟨s.prices.entries, rfl⟩

end Steps

theorem exists_entries_of_after (s : Service) (steps : List Step) :
    ∃ entries, s.after steps =
      { s with prices := { PriceCache.ofSeconds s.config.priceCacheSeconds with entries } } := by
  induction steps with
  | nil => exact ⟨∅, rfl⟩
  | cons step steps ih =>
      obtain ⟨entries, hentries⟩ := ih
      obtain ⟨entries', hstep⟩ := (s.after steps).exists_entries_of_perform step
      refine ⟨entries', ?_⟩
      rw [after, hstep, hentries]

theorem loaded_cons_search {scope : Scope} {e : PriceEntry} {calls : List EngineCall}
    {answer : Outcome Fault Response} {events : List Event} :
    Loaded scope e (.search calls answer :: events) ↔ Loaded scope e events := by
  simp [Loaded]

theorem loaded_cons_axis {scope : Scope} {e : PriceEntry} {moment : Moment}
    {loads : List (Scope × Except Fault Float)}
    {answer : Except Fault (Option (Scale.Axis Float))} {events : List Event} :
    Loaded scope e (.axis moment loads answer :: events) ↔
      (scope, .ok e.price) ∈ loads ∧ e.loadedAt = moment.answered ∨ Loaded scope e events := by
  constructor
  · rintro ⟨moment', loads', answer', hmem, hload, hat⟩
    rcases List.mem_cons.mp hmem with heq | hmem
    · cases heq
      exact .inl ⟨hload, hat⟩
    · exact .inr ⟨moment', loads', answer', hmem, hload, hat⟩
  · rintro (⟨hload, hat⟩ | ⟨moment', loads', answer', hmem, hload, hat⟩)
    · exact ⟨moment, loads, answer, List.mem_cons_self, hload, hat⟩
    · exact ⟨moment', loads', answer', List.mem_cons_of_mem _ hmem, hload, hat⟩

section Runs

variable {s : Service} {steps : List Step} {source : Scope → Except Fault Float} {moment : Moment}
  {scope : Scope} {maxTicks : ℕ}

theorem hasPriceSource_after (s : Service) (steps : List Step) :
    (s.after steps).hasPriceSource = s.hasPriceSource := by
  obtain ⟨entries, he⟩ := s.exists_entries_of_after steps
  rw [he]

theorem lifetime_after (s : Service) (steps : List Step) :
    (s.after steps).prices.lifetime = s.config.priceCacheSeconds * 1000000000 := by
  obtain ⟨entries, he⟩ := s.exists_entries_of_after steps
  rw [he]
  rfl

/-- A step that asks at a time when nothing remembered of its scope has lived out its time finds
what is remembered. -/
theorem fresh?_after
    (hlives : ∀ e, (s.after steps).prices.entries.get? scope = some e →
      moment.asked - e.loadedAt < s.config.priceCacheSeconds * 1000000000) :
    (s.after steps).prices.fresh? scope moment.asked =
      ((s.after steps).prices.entries.get? scope).map PriceEntry.price := by
  cases hget : (s.after steps).prices.entries.get? scope with
  | none => exact PriceCache.fresh?_of_get?_eq_none hget _
  | some e => rw [PriceCache.fresh?_of_get? hget, lifetime_after, if_pos (hlives e hget)]; rfl

/-- The remembered prices are those that were loaded. A scope is loaded once at most, so no load
takes the place of another. -/
theorem get?_entries_after (hlives : s.NeverStale steps) (scope : Scope) (e : PriceEntry) :
    (s.after steps).prices.entries.get? scope = some e ↔ Loaded scope e (s.history steps) := by
  induction steps generalizing scope e with
  | nil => simp [after, renewed, PriceCache.ofSeconds, history, Loaded]
  | cons step steps ih =>
      cases step with
      | search engine r =>
          have hleft : ((s.after steps).search engine r).service = s.after steps :=
            ((s.after steps).search_of_prices (s.after steps).prices engine r).2.2
          rw [after, history, perform, hleft]
          exact (ih hlives scope e).trans loaded_cons_search.symm
      | axis source moment scope' maxTicks =>
          obtain ⟨hnow, hbefore⟩ := hlives
          rw [after, history, perform]
          dsimp only
          rw [loaded_cons_axis, ← ih hbefore scope e]
          obtain ⟨-, he⟩ | ⟨-, ⟨_, -, he⟩ | ⟨hfresh, ⟨price, hsource, he⟩ | ⟨_, hsource, he⟩⟩⟩ :=
            (s.after steps).priceAxis_cases source moment scope' maxTicks
          · simp [he]
          · simp [he]
          · -- whatever was remembered of the scope would still have been fresh
            have hnone : (s.after steps).prices.entries.get? scope' = none := by
              rw [fresh?_after fun e h => hnow e ((ih hbefore scope' e).mp h)] at hfresh
              exact Option.map_eq_none_iff.mp hfresh
            rw [he]
            by_cases hscope : scope = scope'
            · subst hscope
              obtain ⟨loadedAt, price'⟩ := e
              simp [hsource, hnone, eq_comm, and_comm]
            · simp [hscope]
          · simp [he, hsource]

theorem loaded_unique (hlives : s.NeverStale steps) {e e' : PriceEntry}
    (h : Loaded scope e (s.history steps)) (h' : Loaded scope e' (s.history steps)) : e = e' := by
  rw [← get?_entries_after hlives] at h h'
  exact Option.some.inj (h.symm.trans h')

/-- What a question does after a run, told by what was seen of the run. -/
theorem priceAxis_after_cases
    (hlives : s.NeverStale (.axis source moment scope maxTicks :: steps)) :
    let found := (s.after steps).priceAxis source moment scope maxTicks
    (s.hasPriceSource = false ∧ found.asked = [] ∧
      found.answer = .error (.config "no max price source installed")) ∨
    s.hasPriceSource = true ∧
      ((∃ e, Loaded scope e (s.history steps) ∧ found.asked = [] ∧
        found.answer = axisFor e.price maxTicks) ∨
      (∀ e, ¬ Loaded scope e (s.history steps)) ∧ found.asked = [scope] ∧
        found.answer = (source scope).bind (axisFor · maxTicks) ∧
        ∀ fault, source scope = .error fault → found.service = s.after steps) := by
  dsimp only
  have hget := get?_entries_after hlives.2 scope
  have hfresh : (s.after steps).prices.fresh? scope moment.asked =
      ((s.after steps).prices.entries.get? scope).map PriceEntry.price :=
    fresh?_after fun e h => hlives.1 e ((hget e).mp h)
  obtain ⟨hsource, he⟩ | ⟨hsource, ⟨price, hknown, he⟩ | ⟨hnone, hload⟩⟩ :=
    (s.after steps).priceAxis_cases source moment scope maxTicks <;>
    rw [hasPriceSource_after] at hsource
  · exact .inl ⟨hsource, by rw [he], by rw [he]⟩
  · rw [hfresh] at hknown
    obtain ⟨e, hentry, rfl⟩ := Option.map_eq_some_iff.mp hknown
    exact .inr ⟨hsource, .inl ⟨e, (hget e).mp hentry, by rw [he], by rw [he]⟩⟩
  · rw [hfresh, Option.map_eq_none_iff] at hnone
    have hnever (e : PriceEntry) : ¬ Loaded scope e (s.history steps) := by
      rw [← hget, hnone]
      exact nofun
    refine .inr ⟨hsource, .inr ⟨hnever, ?_⟩⟩
    obtain ⟨price, hgiven, he⟩ | ⟨fault, hgiven, he⟩ := hload
    · refine ⟨by rw [he], by rw [he, hgiven]; rfl, fun fault hfault => ?_⟩
      rw [hgiven] at hfault
      cases hfault
    · exact ⟨by rw [he], by rw [he, hgiven]; rfl, fun _ _ => by rw [he]⟩

/-- A scope that was loaded is not asked for again. -/
theorem asked_of_loaded (hlives : s.NeverStale (.axis source moment scope maxTicks :: steps))
    {e : PriceEntry} (h : Loaded scope e (s.history steps)) :
    ((s.after steps).priceAxis source moment scope maxTicks).asked = [] := by
  obtain ⟨-, hasked, -⟩ | ⟨-, ⟨-, -, hasked, -⟩ | ⟨hnever, -⟩⟩ := priceAxis_after_cases hlives
  · exact hasked
  · exact hasked
  · exact absurd h (hnever e)

end Runs

/-- Over every run a search goes as on a new service and leaves what is remembered. As long as
nothing that is remembered lives out its time, a question for an axis asks the source exactly if
there is one and no earlier question has loaded the scope. A fault of the source is its answer and
leaves what is remembered. A price is remembered, whatever becomes of the axis, and the answer is no
axis exactly for a price that is not a positive number, and else what the scale makes of it. -/
theorem after_steps (s : Service) (steps : List Step) :
    (∀ engine r,
      let exchange := (s.after steps).search engine r
      exchange.calls = (s.renewed.search engine r).calls ∧
        exchange.answer = (s.renewed.search engine r).answer ∧
        exchange.service = s.after steps) ∧
    ∀ (source : Scope → Except Fault Float) (moment : Moment) (scope : Scope) (maxTicks : ℕ),
      let run := .axis source moment scope maxTicks :: steps
      let found := (s.after steps).priceAxis source moment scope maxTicks
      let seen := s.history steps
      s.NeverStale run →
      (found.asked = [scope] ↔ s.hasPriceSource = true ∧ ∀ e, ¬ Loaded scope e seen) ∧
      (found.asked ≠ [scope] → found.asked = []) ∧
      (s.hasPriceSource = false →
        found.answer = .error (.config "no max price source installed")) ∧
      (s.hasPriceSource = true →
        (∀ fault, (∀ e, ¬ Loaded scope e seen) → source scope = .error fault →
          found.answer = .error fault ∧ found.service = s.after steps) ∧
        ∀ price, (∃ e, Loaded scope e seen ∧ e.price = price) ∨
            (∀ e, ¬ Loaded scope e seen) ∧ source scope = .ok price →
          (∀ source' moment' maxTicks',
            s.NeverStale (.axis source' moment' scope maxTicks' :: run) →
            (found.service.priceAxis source' moment' scope maxTicks').asked = []) ∧
          (found.answer = .ok none ↔ price.isNaN = true ∨ price ≤ 0) ∧
          (¬ (price.isNaN = true ∨ price ≤ 0) →
            found.answer = (slider price maxTicks).map some)) := by
  refine ⟨fun engine r => ?_, fun source moment scope maxTicks => ?_⟩
  · obtain ⟨entries, he⟩ := s.exists_entries_of_after steps
    rw [he]
    exact s.renewed.search_of_prices _ engine r
  intro run found seen hlives
  -- The question is itself a step of the run, so what it loads is not asked for at the next one.
  have hnext {e : PriceEntry} (h : Loaded scope e (s.history run)) :
      ∀ source' moment' maxTicks', s.NeverStale (.axis source' moment' scope maxTicks' :: run) →
        (found.service.priceAxis source' moment' scope maxTicks').asked = [] :=
    fun _ _ _ hlives' => asked_of_loaded hlives' h
  have hrun (e : PriceEntry) : Loaded scope e (s.history run) ↔
      (scope, .ok e.price) ∈ found.asked.map (fun scope => (scope, source scope)) ∧
        e.loadedAt = moment.answered ∨ Loaded scope e seen := loaded_cons_axis
  obtain ⟨hsource, hasked, hanswer⟩ | ⟨hsource, ⟨known, hknown, hasked, hanswer⟩ |
      ⟨hnever, hasked, hanswer, hservice⟩⟩ := priceAxis_after_cases hlives
  · simp [found, hasked, hanswer, hsource]
  · rw [hasked, hanswer]
    refine ⟨iff_of_false (by simp) fun h => h.2 known hknown, fun _ => rfl, by simp [hsource],
      fun _ => ⟨fun fault hnever => absurd hknown (hnever known), ?_⟩⟩
    rintro price (⟨e, hloaded, rfl⟩ | ⟨hnever, -⟩)
    · obtain rfl := loaded_unique hlives.2 hknown hloaded
      exact ⟨hnext ((hrun known).mpr (.inr hknown)), axisFor_eq_none_iff,
        fun hpositive => axisFor_eq_slider hpositive maxTicks⟩
    · exact absurd hknown (hnever known)
  · rw [hasked, hanswer]
    refine ⟨iff_of_true rfl ⟨hsource, hnever⟩, fun h => absurd rfl h, by simp [hsource],
      fun _ => ⟨fun fault _ hgiven => ⟨by rw [hgiven]; rfl, hservice fault hgiven⟩, ?_⟩⟩
    rintro price (⟨e, hloaded, -⟩ | ⟨-, hgiven⟩)
    · exact absurd hloaded (hnever e)
    · have hload : Loaded scope ⟨moment.answered, price⟩ (s.history run) :=
        (hrun _).mpr (.inl ⟨by rw [hasked]; simp [hgiven], rfl⟩)
      rw [hgiven]
      exact ⟨hnext hload, axisFor_eq_none_iff,
        fun hpositive => axisFor_eq_slider hpositive maxTicks⟩

/-- The source is down at first, then gives a price for an axis of too few ticks, and the price is
remembered all the same. A search comes between. As long as the price has not lived out its hour, an
axis with enough ticks is answered though the source is down again. -/
theorem after_steps_with_too_few_ticks :
    let second := 1000000000
    let s : Service := {
      config := { priceCacheSeconds := 3600 }
      lookups := { scope := fun _ => .ok 1, priceKey := fun _ => .ok "USD.default",
                   label := fun _ _ => none, optionId := fun _ _ => none, paths := fun _ _ => ∅ }
      hasPriceSource := true }
    let down : Scope → Except Fault Float := fun _ => .error (.engine "down")
    let engine : EngineCall → Except Fault EngineResult := fun _ => .ok { hitCount := 1 }
    let r : SearchRequest := { index := "products", query := .bool [] [] [], size := 20 }
    let steps : List Step := [.search engine r,
      .axis (fun _ => .ok 130) ⟨2 * second, 3 * second, by decide⟩ 1 1,
      .axis down ⟨0, second, by decide⟩ 1 5]
    let late : Moment := ⟨3603 * second - 1, 3603 * second, by decide⟩
    let found := (s.after steps).priceAxis down late 1 5
    s.NeverStale (.axis down late 1 5 :: steps) ∧ found.asked = [] ∧
      found.answer = .ok (some { lower := 0, upper := 150, step := 50 }) ∧
      ((s.after steps).search engine r).calls.length = 1 := by
  intro second s down engine r steps late found
  have hloaded : Loaded 1 ⟨3 * second, 130⟩ (s.history steps) :=
    ⟨_, _, _, List.mem_cons_of_mem _ List.mem_cons_self, List.mem_singleton.mpr rfl, rfl⟩
  have haxis : slider 130 5 = .ok { lower := 0, upper := 150, step := 50 } := by decide +kernel
  have hpositive : ¬ (Float.isNaN 130 = true ∨ (130 : Float) ≤ 0) := by decide +kernel
  have hfirst : s.NeverStale [.axis down ⟨0, second, by decide⟩ 1 5] :=
    ⟨fun e h => by simp [history, Loaded] at h, trivial⟩
  have hsecond : s.NeverStale steps := by
    refine ⟨fun e h => ?_, hfirst⟩
    rw [← get?_entries_after hfirst] at h
    cases h
  have hlives : s.NeverStale (.axis down late 1 5 :: steps) := by
    refine ⟨fun e h => ?_, hsecond⟩
    rw [loaded_unique hsecond h hloaded]
    decide
  obtain ⟨hsearch, hquestion⟩ := after_steps s steps
  obtain ⟨hasked, hnone, -, hanswer⟩ := hquestion down late 1 5 hlives
  obtain ⟨-, -, hgiven⟩ := (hanswer rfl).2 130 (.inl ⟨_, hloaded, rfl⟩)
  refine ⟨hlives, hnone fun h => (hasked.mp h).2 _ hloaded, (hgiven hpositive).trans ?_, ?_⟩
  · rw [haxis]
    rfl
  · rw [(hsearch engine r).1]
    decide +kernel

end FacetedSearch.Service
