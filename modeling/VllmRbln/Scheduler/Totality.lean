import VllmRbln.Common.Dict
import VllmRbln.Scheduler.Idle
import VllmRbln.Scheduler.DecodeBudget

/-! A `schedule()` call does not raise. Every exception and assertion on its way is refused
by the model, so the call returns in a reachable state exactly because the counts of the
requests, the token budget and the seats of the step are in order whenever they are read. -/
namespace VllmRbln.Scheduler

set_option linter.unusedSectionVars false

open SubBlock Run

variable {H X : Type} [DecidableEq H]

/-! ### The counts of the requests -/

/-- What is computed of a live request: below the length limit and, unless tokens are
drafted, no more than it has or will have once its steps in flight are done. A request that
may be admitted still has a token to compute. -/
structure Request.Bounded (cfg : Config) (request : Request) : Prop where
  computed : request.numComputedTokens < cfg.maxModelLen
  demand : cfg.numSpecTokens = 0 →
    request.numComputedTokens ≤ request.numTokens + request.numOutputPlaceholders
  undrafted : cfg.numSpecTokens = 0 → request.specTokenIds = []
  ready : request.status.isWaiting → request.status ≠ .waitingForRemoteKvs →
    request.numComputedTokens < request.numTokens

/-- The state between two calls: the requests' counts and the seats. -/
structure BoundedOk (cfg : Config) (s : State H) : Prop where
  sized : SizedOk cfg s
  bounded : ∀ id, (s.requests id).status ≠ .unknown → (s.requests id).status ≠ .finished →
    (s.requests id).Bounded cfg
  seats : s.running.length ≤ cfg.maxNumRunningReqs

/-- The tokens scheduled for a request keep it bounded. -/
structure Request.Takes (cfg : Config) (numNewTokens : Nat) (request : Request) : Prop where
  computed : request.numComputedTokens + numNewTokens < cfg.maxModelLen
  demand : cfg.numSpecTokens = 0 → request.numComputedTokens + numNewTokens ≤
    request.numTokens + request.numOutputPlaceholders

/-- The step: its state, the tokens of its rows and the drafts it verifies. -/
structure StepBounded (cfg : Config) (locals : Locals H) : Prop where
  state : BoundedOk cfg locals.st
  rows : ∀ row ∈ locals.numScheduledTokens, (locals.st.requests row.1).Takes cfg row.2
  undrafted : cfg.numSpecTokens = 0 → ∀ id, locals.scheduledSpecDecodeTokens id = []

section Counts

variable {cfg : Config} {s s' : State H} {id : ReqId} {request : Request}

theorem BoundedOk.change (hOk : BoundedOk cfg s) (hSized : SizedOk cfg s')
    (hOthers : ∀ other, other ≠ id → s'.requests other = s.requests other)
    (hSelf : (s'.requests id).status ≠ .unknown → (s'.requests id).status ≠ .finished →
      (s'.requests id).Bounded cfg)
    (hSeats : s'.running.length ≤ cfg.maxNumRunningReqs) : BoundedOk cfg s' where
  sized := hSized
  bounded other hKnown hUnfinished := by
    by_cases hEq : other = id
    · subst hEq
      exact hSelf hKnown hUnfinished
    · rw [hOthers other hEq] at hKnown hUnfinished ⊢
      exact hOk.bounded other hKnown hUnfinished
  seats := hSeats

/-- Requests that differ in their drafts alone, and draft nothing if nothing is drafted. -/
theorem BoundedOk.redraft (hOk : BoundedOk cfg s)
    (hSame : ∀ id, ∃ drafts, s'.requests id = { s.requests id with specTokenIds := drafts } ∧
      (cfg.numSpecTokens = 0 → (s.requests id).specTokenIds = [] → drafts = []))
    (hRunning : s'.running = s.running) : BoundedOk cfg s' := by
  constructor
  · intro id hKnown hUnfinished
    obtain ⟨drafts, hEq, -⟩ := hSame id
    rw [hEq] at hKnown hUnfinished ⊢
    have hSized := hOk.sized id hKnown hUnfinished
    exact ⟨hSized.pos, hSized.fits⟩
  · intro id hKnown hUnfinished
    obtain ⟨drafts, hEq, hDrafts⟩ := hSame id
    rw [hEq] at hKnown hUnfinished ⊢
    have hBounded := hOk.bounded id hKnown hUnfinished
    exact ⟨hBounded.computed, hBounded.demand,
      fun hNone => hDrafts hNone (hBounded.undrafted hNone), hBounded.ready⟩
  · rw [hRunning]
    exact hOk.seats

/-- The running loop's clamps. -/
theorem Request.Bounded.runningTokens (hBounded : request.Bounded cfg) {tokenBudget : Nat}
    {numNewTokens : Nat} (hTokens : (numNewTokens : Int) = request.runningTokens cfg tokenBudget) :
    request.Takes cfg numNewTokens ∧ numNewTokens ≤ tokenBudget := by
  have hComputed := hBounded.computed
  unfold Request.runningTokens at hTokens
  dsimp only at hTokens
  refine ⟨⟨by omega, fun hNone => ?_⟩, by omega⟩
  have hDemand := hBounded.demand hNone
  have hDrafts := hBounded.undrafted hNone
  unfold Request.runningDemand Request.numTokensWithSpec at hTokens
  rw [hDrafts, List.length_nil] at hTokens
  split at hTokens <;> omega

/-- A request that the running loop does not pass over has tokens to compute. -/
theorem Request.Bounded.runningTokens_nonneg (hBounded : request.Bounded cfg) {tokenBudget : Nat}
    (hNotPassed : ¬ request.passedOver cfg tokenBudget) :
    0 ≤ request.runningTokens cfg tokenBudget := by
  have hComputed := hBounded.computed
  have hDemand : 0 ≤ request.runningDemand := by
    simp only [Request.passedOver, not_or] at hNotPassed
    have hDefer := hNotPassed.2.1
    unfold shouldDeferSpecStep at hDefer
    by_cases hNone : cfg.numSpecTokens = 0
    · have hLeft := hBounded.demand hNone
      unfold Request.runningDemand Request.numTokensWithSpec
      rw [hBounded.undrafted hNone, List.length_nil]
      omega
    · rw [if_neg hNone] at hDefer
      split at hDefer <;> simp only [decide_eq_true_eq] at hDefer <;> omega
  unfold Request.runningTokens
  dsimp only
  split <;> omega

/-- Counts that do not fall keep what a row takes. -/
theorem Request.Takes.congr {request' : Request} {numNewTokens : Nat}
    (hTakes : request.Takes cfg numNewTokens)
    (hComputed : request'.numComputedTokens = request.numComputedTokens)
    (hTokens : request'.numTokens = request.numTokens)
    (hPlaceholders : request'.numOutputPlaceholders = request.numOutputPlaceholders) :
    request'.Takes cfg numNewTokens :=
  ⟨hComputed ▸ hTakes.computed, by rw [hComputed, hTokens, hPlaceholders]; exact hTakes.demand⟩

end Counts

/-! ### The running loop -/

theorem bounded_running (cfg : Config) (hashing : Hashing H X) (up : Upstream H) :
    RunningRule cfg hashing up (StepBounded cfg) where
  pass _ hInv _ _ _ := ⟨hInv.state, hInv.rows, hInv.undrafted⟩
  preempt {locals locals' id} hOk hInv hVictim hPre := by
    have hStatus := (hOk.queues.request id).running.mp (victim_mem hVictim)
    have hSized := hInv.state.sized id (by simp [hStatus]) (by simp [hStatus])
    have hBounded := hInv.state.bounded id (by simp [hStatus]) (by simp [hStatus])
    have hSelf : locals'.st.requests id = { locals.st.requests id with
        status := .preempted
        numComputedTokens := 0
        specTokenIds := []
        numPreemptions := (locals.st.requests id).numPreemptions + 1 } := by
      rw [hPre.st]
      exact Function.update_self ..
    have hRunning : locals'.st.running = locals.st.running.filter (· ≠ id) := by
      rw [hPre.st]
      rfl
    constructor
    · refine hInv.state.change ((sized_running cfg hashing up).preempt hOk hInv.state.sized hVictim
        hPre) (fun other (hNe : other ≠ id) => hPre.requests_of_ne hNe) (fun _ _ => ?_) ?_
      · rw [hSelf]
        exact ⟨Nat.zero_lt_of_lt hBounded.computed, fun _ => Nat.zero_le _, fun _ => rfl,
          fun _ _ => hSized.pos⟩
      · rw [hRunning]
        exact le_trans (List.length_filter_le ..) hInv.state.seats
    · intro row hRow
      rw [hPre.numScheduledTokens, List.mem_filter] at hRow
      rw [hPre.requests_of_ne (by simpa using hRow.2)]
      exact hInv.rows row hRow.1
    · intro hNone other
      by_cases hEq : other = id
      · rw [hEq, hPre.droppedDrafts, hInv.undrafted hNone]
        split <;> rfl
      · rw [hPre.scheduledSpecDecodeTokens other hEq, hInv.undrafted hNone]
  grant {id numNewTokens start locals kv newBlocks} _ hInv hGranted := by
    have hStatus := (hGranted.round.ok.queues.request id).running.mp hGranted.round.running
    have hBounded := hInv.state.bounded id (by simp [hStatus]) (by simp [hStatus])
    have hTokens := hGranted.tokens
    rw [← hGranted.request] at hTokens
    have hSame : ∀ other, ∃ drafts, (locals.grantRunning id numNewTokens kv newBlocks).st.requests
        other = { locals.st.requests other with specTokenIds := drafts } ∧ (cfg.numSpecTokens = 0 →
          (locals.st.requests other).specTokenIds = [] → drafts = []) := by
      intro other
      by_cases hEq : other = id
      · subst hEq
        exact ⟨[], Function.update_self .., fun _ _ => rfl⟩
      · exact ⟨_, Function.update_of_ne hEq .., fun _ hNone => hNone⟩
    constructor
    · exact hInv.state.redraft hSame rfl
    · intro row hRow
      obtain ⟨drafts, hRequest, -⟩ := hSame row.1
      rw [hRequest]
      rcases List.mem_append.mp hRow with hRow | hRow
      · exact (hInv.rows row hRow).congr rfl rfl rfl
      · rw [List.mem_singleton.mp hRow]
        exact (hBounded.runningTokens hTokens).1.congr rfl rfl rfl
    · intro hNone other
      show Function.update locals.scheduledSpecDecodeTokens id
        ((locals.st.requests id).scheduledDrafts numNewTokens) other = []
      by_cases hEq : other = id
      · rw [hEq, Function.update_self, Request.scheduledDrafts, hBounded.undrafted hNone,
          List.take_nil]
      · rw [Function.update_of_ne hEq, hInv.undrafted hNone]

/-- Scheduled tokens and what is left of the budget are what the step started with. -/
def Locals.Spends (limit : Nat) (locals : Locals H) : Prop :=
  (locals.numScheduledTokens.map Prod.snd).sum + locals.tokenBudget = limit

/-- A request that is preempted gives its tokens back. -/
theorem preempt_spends {cfg : Config} {hashing : Hashing H X} {up : Upstream H} {id : ReqId}
    {locals locals' : Locals H} {limit : Nat} (hBooks : Books locals)
    (hSpends : locals.Spends limit)
    (hPreempt : locals.preempt cfg hashing up id = some locals') : locals'.Spends limit := by
  have hNodup : (locals.numScheduledTokens.map Prod.fst).Nodup :=
    hBooks.keys.nodup_iff.mpr hBooks.nodup
  unfold Locals.Spends at hSpends ⊢
  by_cases hMem : cfg.priorityPolicy = true ∧ id ∈ locals.scheduledRunningReqs
  · simp only [Locals.preempt, hMem, and_self, if_true, Locals.unschedule] at hPreempt
    split at hPreempt
    · cases hPreempt
    · simp only [Option.pure_def, Option.bind_eq_bind, Option.bind_some,
        Option.some.injEq] at hPreempt
      subst hPreempt
      have hSum := Dict.sum_without hNodup id
      dsimp only
      omega
  · simp only [Locals.preempt, hMem, if_false, Option.pure_def, Option.bind_eq_bind,
      Option.bind_some, Option.some.injEq] at hPreempt
    subst hPreempt
    exact hSpends

theorem preempt_tokenBudget {cfg : Config} {hashing : Hashing H X} {up : Upstream H} {id : ReqId}
    {locals locals' : Locals H} (hPreempt : locals.preempt cfg hashing up id = some locals') :
    locals.tokenBudget ≤ locals'.tokenBudget := by
  by_cases hMem : cfg.priorityPolicy = true ∧ id ∈ locals.scheduledRunningReqs
  · simp only [Locals.preempt, hMem, and_self, if_true, Locals.unschedule] at hPreempt
    split at hPreempt
    · cases hPreempt
    · simp only [Option.pure_def, Option.bind_eq_bind, Option.bind_some,
        Option.some.injEq] at hPreempt
      subst hPreempt
      exact Nat.le_add_right ..
  · simp only [Locals.preempt, hMem, if_false, Option.pure_def, Option.bind_eq_bind,
      Option.bind_some, Option.some.injEq] at hPreempt
    subst hPreempt
    exact le_rfl

theorem PreemptedFor.spends {cfg : Config} {hashing : Hashing H X} {up : Upstream H} {id : ReqId}
    {start locals : Locals H} {limit : Nat} (hRound : InRound cfg id start)
    (prior : PreemptedFor cfg hashing up id start locals) (hSpends : start.Spends limit) :
    locals.Spends limit ∧ start.tokenBudget ≤ locals.tokenBudget := by
  induction prior with
  | refl => exact ⟨hSpends, le_rfl⟩
  | step prior _ _ hPreempt ih =>
      have hIn := ((trivial_running cfg hashing up).preemptedFor trivial hRound prior).1
      obtain ⟨hSpends, hMore⟩ := ih
      constructor
      · exact preempt_spends hIn.ok.books hSpends hPreempt
      · exact le_trans hMore (preempt_tokenBudget hPreempt)

theorem victim_isSome (cfg : Config) {locals : Locals H} {id : ReqId}
    (hMem : id ∈ locals.st.running) : ∃ worst, locals.victim cfg = some worst := by
  have hSome : locals.st.running ≠ [] := List.ne_nil_of_mem hMem
  unfold Locals.victim
  split
  · split
    · rename_i hNil
      exact absurd hNil hSome
    · exact ⟨_, rfl⟩
  · exact ⟨_, List.getLast?_eq_some_getLast hSome⟩

/-- Preempting ends: every victim leaves the running queue, and the request itself is the
last. -/
theorem allocateOrPreempt_total {cfg : Config} (hashing : Hashing H X) (up : Upstream H)
    {id : ReqId} (numNewTokens : Nat) {start locals : Locals H} (hRound : InRound cfg id start)
    (hCounts : CountsRunning start) (prior : PreemptedFor cfg hashing up id start locals)
    {fuel : Nat} (hFuel : locals.st.running.length < fuel) :
    ∃ result, Locals.allocateOrPreempt cfg hashing up id numNewTokens fuel locals =
      some result := by
  induction fuel generalizing locals with
  | zero => exact absurd hFuel (Nat.not_lt_zero _)
  | succ fuel ih =>
      have hIn := ((trivial_running cfg hashing up).preemptedFor trivial hRound prior).1
      obtain ⟨worst, hVictim⟩ := victim_isSome cfg hIn.running
      obtain ⟨next, hPreempt, -⟩ := preempt_counts hashing up hIn.ok (hIn.victim_notMem hVictim)
        (prior.counts hRound hCounts).1
      have hPre := preempt_spec hIn.ok (hIn.victim_notMem hVictim) hPreempt
      unfold Locals.allocateOrPreempt
      split
      · exact ⟨_, rfl⟩
      · simp only [hVictim, hPreempt, Option.bind_eq_bind, Option.bind_some]
        by_cases hEq : worst = id
        · rw [if_pos hEq]
          exact ⟨_, rfl⟩
        · rw [if_neg hEq]
          apply ih (prior.step hVictim hEq hPreempt)
          have hRunning : next.st.running = locals.st.running.filter (· ≠ worst) := by
            rw [hPre.st]
            rfl
          have hShort : (locals.st.running.filter (· ≠ worst)).length < locals.st.running.length :=
            List.length_filter_lt_length_iff_exists.mpr ⟨worst, victim_mem hVictim, by simp⟩
          rw [hRunning]
          omega

/-- A round of the running loop does not raise, and pays what it schedules. -/
theorem runningRound_total {cfg : Config} {hashing : Hashing H X} {up : Upstream H}
    (budget : DecodeBatchBudget) {locals : Locals H} (hOk : RunningOk cfg locals)
    (hCounts : CountsRunning locals) (hInv : StepBounded cfg locals) {limit : Nat}
    (hSpends : locals.Spends limit) :
    ∃ next locals', locals.runningRound cfg hashing up budget = some next ∧
      (next = .stop locals' ∨ next = .more locals') ∧ locals'.Spends limit := by
  unfold Locals.runningRound
  split
  · exact ⟨_, _, rfl, .inl rfl, hSpends⟩
  rename_i id hIndex
  split
  · exact ⟨_, _, rfl, .inl rfl, hSpends⟩
  dsimp only
  split
  · exact ⟨_, _, rfl, .inr rfl, hSpends⟩
  rename_i hNotPassed
  have hRound := hOk.inRound hIndex
  have hStatus := (hOk.queues.request id).running.mp hRound.running
  have hBounded := hInv.state.bounded id (by simp [hStatus]) (by simp [hStatus])
  have hNonneg := hBounded.runningTokens_nonneg hNotPassed
  rw [if_neg (by omega)]
  have hTokens : (((locals.st.requests id).runningTokens cfg locals.tokenBudget).toNat : Int) =
      (locals.st.requests id).runningTokens cfg locals.tokenBudget := by omega
  have hWithin := (hBounded.runningTokens hTokens).2
  obtain ⟨⟨last, blocks⟩, hAlloc⟩ := allocateOrPreempt_total hashing up
    ((locals.st.requests id).runningTokens cfg locals.tokenBudget).toNat hRound hCounts .refl
    (Nat.lt_succ_self locals.st.running.length)
  rw [hAlloc]
  obtain ⟨last', prior, ⟨kv, newBlocks, rfl, -, rfl⟩ | ⟨rfl, hVictim, hPreempt⟩⟩ :=
    allocateOrPreempt_cases .refl hAlloc
  · obtain ⟨hLast, hMore⟩ := prior.spends hRound hSpends
    have hPaid : (Locals.scheduleRunning { last' with st := { last'.st with kv := kv } } id
        ((locals.st.requests id).runningTokens cfg locals.tokenBudget).toNat newBlocks).Spends
          limit := by
      unfold Locals.Spends at hLast ⊢
      simp only [Locals.scheduleRunning, List.map_append, List.sum_append, List.map_cons,
        List.map_nil, List.sum_cons, List.sum_nil]
      omega
    dsimp only
    split
    · exact ⟨_, _, rfl, .inr rfl, hPaid⟩
    · exact ⟨_, _, rfl, .inl rfl, hPaid⟩
  · have hLast := ((trivial_running cfg hashing up).preemptedFor trivial hRound prior).1
    have hGiven := preempt_spends hLast.ok.books (prior.spends hRound hSpends).1 hPreempt
    exact ⟨_, _, rfl, .inl rfl, hGiven⟩

/-- The step when the running loop is left. -/
structure RunningTotal (cfg : Config) (limit : Nat) (locals : Locals H) : Prop where
  ok : RunningOk cfg locals
  inv : StepBounded cfg locals
  spends : locals.Spends limit

theorem running_total {cfg : Config} (hashing : Hashing H X) (up : Upstream H) {s : State H}
    (hQueues : Queues cfg s []) (hState : BoundedOk cfg s) (budget : DecodeBatchBudget)
    (hCap : 0 < budget.hardCap) (fuel : Nat) :
    ∃ locals, loop (Locals.runningRound cfg hashing up budget) fuel (Locals.start cfg up s) =
      some locals ∧
      RunningTotal cfg (if up.pausedAll then 0 else cfg.maxNumScheduledTokens) locals := by
  apply loop_total (fun locals => RunningTotal cfg
    (if up.pausedAll then 0 else cfg.maxNumScheduledTokens) locals ∧ CountsRunning locals ∧
      locals.admitted < budget.hardCap)
  · exact fun _ hInv => hInv.1
  · rintro locals ⟨⟨hOk, hInv, hSpends⟩, hCounts, hUnder⟩
    obtain ⟨next, locals', hRound, hNext, hSpends⟩ :=
      runningRound_total budget hOk hCounts hInv hSpends
    obtain ⟨ruled, hRuled, hNextOk, hNextInv⟩ :=
      runningRound_rule (bounded_running cfg hashing up) hOk hInv hRound
    obtain ⟨counted, hNextCounts, hCounted⟩ := runningRound_counts hOk hCounts hUnder hRound
    rcases hNext with rfl | rfl
    · obtain ⟨hEq, -⟩ | ⟨hEq, -⟩ := hRuled <;> cases hEq
      exact .inl ⟨_, hRound, hNextOk, hNextInv, hSpends⟩
    · obtain ⟨hEq, -⟩ | ⟨hEq, -⟩ := hRuled <;> cases hEq
      obtain ⟨hEq, -⟩ | ⟨hEq, hNextUnder⟩ := hCounted <;> cases hEq
      exact .inr ⟨_, hRound, ⟨hNextOk, hNextInv, hSpends⟩, hNextCounts, hNextUnder⟩
  · refine ⟨⟨RunningOk.start up hQueues, ⟨hState, by simp [Locals.start], fun _ _ => rfl⟩, ?_⟩, rfl,
      hCap⟩
    simp [Locals.Spends, Locals.start]

/-! ### The waiting loop -/

section Queued

variable {cfg : Config} {locals locals' : Locals H} {id : ReqId} {status : RequestStatus}
  {numComputedTokens : Nat}

/-- A queued request gets a status and a count of computed tokens. -/
theorem StepBounded.queued (hInv : StepBounded cfg locals) (hOk : WaitingOk cfg locals)
    (hMem : id ∈ locals.st.waiting ++ locals.st.skippedWaiting)
    (hRequests : locals'.st.requests = Function.update locals.st.requests id
      { locals.st.requests id with status := status, numComputedTokens := numComputedTokens })
    (hFits : numComputedTokens ≤ max (locals.st.requests id).numTokens
      (locals.st.requests id).numComputedTokens)
    (hReady : status.isWaiting → status ≠ .waitingForRemoteKvs →
      numComputedTokens < (locals.st.requests id).numTokens)
    (hSeats : locals'.st.running.length ≤ cfg.maxNumRunningReqs)
    (hRows : ∀ row ∈ locals'.numScheduledTokens, row ∈ locals.numScheduledTokens ∨
      row.1 = id ∧ numComputedTokens + row.2 ≤ (locals.st.requests id).numTokens)
    (hDrafts : locals'.scheduledSpecDecodeTokens = locals.scheduledSpecDecodeTokens) :
    StepBounded cfg locals' := by
  obtain ⟨hKnown, hUnfinished⟩ := hOk.queues.live_of_queued hMem
  have hSized := hInv.state.sized id hKnown hUnfinished
  have hBounded := hInv.state.bounded id hKnown hUnfinished
  have hSelf : locals'.st.requests id = { locals.st.requests id with
      status := status, numComputedTokens := numComputedTokens } := by
    rw [hRequests, Function.update_self]
  have hOthers : ∀ other, other ≠ id → locals'.st.requests other = locals.st.requests other := by
    intro other hNe
    rw [hRequests, Function.update_of_ne hNe]
  have hShort := hSized.fits
  have hComputed := hBounded.computed
  constructor
  · apply hInv.state.change (hInv.state.sized.queued hOk.queues hMem hRequests) hOthers _ hSeats
    intro _ _
    rw [hSelf]
    refine ⟨?_, fun hNone => ?_, hBounded.undrafted, hReady⟩
    · show numComputedTokens < cfg.maxModelLen
      omega
    · have hDemand := hBounded.demand hNone
      show numComputedTokens ≤
        (locals.st.requests id).numTokens + (locals.st.requests id).numOutputPlaceholders
      omega
  · intro row hRow
    rcases hRows row hRow with hOld | ⟨hEq, hTakes⟩
    · have hNe : row.1 ≠ id := by
        rintro rfl
        have hScheduled := hOk.books.mem_iff.mp (List.mem_map_of_mem hOld)
        exact hOk.queues.notMem_running_of_queued hMem (hOk.books.running _ hScheduled)
      rw [hOthers _ hNe]
      exact hInv.rows row hOld
    · rw [hEq, hSelf]
      constructor
      · show numComputedTokens + row.2 < cfg.maxModelLen
        omega
      · intro _
        show numComputedTokens + row.2 ≤
          (locals.st.requests id).numTokens + (locals.st.requests id).numOutputPlaceholders
        omega
  · rw [hDrafts]
    exact hInv.undrafted

end Queued

/-- A blocked request that may go on is ready, and what arrived leaves a token to compute. -/
theorem promoteRequest_counts (cfg : Config) (hashing : Hashing H X) (locals : Locals H)
    (id : ReqId) (numLoadedTokens : Nat) (hPos : 0 < (locals.st.requests id).numTokens) :
    ∃ status numComputedTokens, (locals.promoteRequest cfg hashing id numLoadedTokens).st.requests =
        Function.update locals.st.requests id { locals.st.requests id with
          status := status, numComputedTokens := numComputedTokens } ∧
      (status = .waiting ∨ status = .preempted) ∧
      numComputedTokens ≤ (locals.st.requests id).numComputedTokens ∧
      ((locals.st.requests id).status = .waitingForRemoteKvs →
        numComputedTokens < (locals.st.requests id).numTokens) := by
  have hReady : (locals.st.requests id).readyStatus = .waiting ∨
      (locals.st.requests id).readyStatus = .preempted := by
    unfold Request.readyStatus
    split <;> simp
  unfold Locals.promoteRequest
  dsimp only
  split
  · split <;> exact ⟨_, _, rfl, hReady, by omega, fun _ => by omega⟩
  · rename_i hLocal
    exact ⟨_, _, rfl, hReady, le_rfl, fun hRemote => absurd hRemote hLocal⟩

/-- The tokens found for a request: its own, or those it had. -/
theorem Found.numComputedTokens_le {cfg : Config} {hashing : Hashing H X} {up : Upstream H}
    {id : ReqId} {locals locals' : Locals H} {found : Locals.Computed}
    (hFound : Found cfg hashing up id locals locals' found) :
    found.numComputedTokens ≤ max (locals'.st.requests id).numTokens
      (locals'.st.requests id).numComputedTokens := by
  obtain ⟨_, _, _, _, hEq, -⟩ := hFound.looked.keeps
  have hSame : locals'.st.requests id = locals.st.requests id := by rw [hEq]
  rw [hSame]
  rcases hFound.computed with ⟨-, -, hLe⟩ | ⟨-, -, -, hSum⟩ <;> omega

theorem Seated.hasSeat {cfg : Config} {hashing : Hashing H X} {up : Upstream H} {id : ReqId}
    {numNewTokens : Nat} {start locals : Locals H} {found : Locals.Computed} {kv : Manager H}
    {newBlocks : Blocks} {ops : List KVCacheCopyOp}
    (hSeated : Seated cfg hashing up id numNewTokens start locals found kv newBlocks ops)
    (hSeats : locals.st.running.length ≤ cfg.maxNumRunningReqs) :
    (locals.st.running ++ [id]).length ≤ cfg.maxNumRunningReqs := by
  obtain ⟨_, _, _, _, hEq, -⟩ := hSeated.search.looked.keeps
  have hSame : locals.st.running = start.st.running := by rw [hEq]
  have hRoom := hSeated.room.2
  rw [← hSame] at hRoom
  rw [List.length_append, List.length_singleton]
  omega

/-- The batch that a prefill pushes out gets back the drafts it was to verify. -/
theorem StepBounded.evict {cfg : Config} {locals : Locals H} (hInv : StepBounded cfg locals)
    (hNodup : locals.scheduledRunningReqs.Nodup) : StepBounded cfg (locals.evictDecodes cfg) := by
  rw [evictDecodes_eq cfg hNodup]
  have hSame : ∀ id, ∃ drafts, ((locals.withoutDecodes cfg locals.scheduledRunningReqs).st.requests
      id = { locals.st.requests id with specTokenIds := drafts }) ∧ (cfg.numSpecTokens = 0 →
        (locals.st.requests id).specTokenIds = [] → drafts = []) := by
    intro id
    simp only [Locals.withoutDecodes]
    split
    · exact ⟨_, rfl, fun hNone _ => hInv.undrafted hNone id⟩
    · exact ⟨_, rfl, fun _ hNil => hNil⟩
  constructor
  · exact hInv.state.redraft hSame rfl
  · intro row hRow
    obtain ⟨drafts, hRequest, -⟩ := hSame row.1
    dsimp only at hRow ⊢
    rw [hRequest]
    exact (hInv.rows row (List.mem_of_mem_filter hRow)).congr rfl rfl rfl
  · intro hNone id
    show (if id ∈ locals.scheduledRunningReqs then [] else locals.scheduledSpecDecodeTokens id) = []
    rw [hInv.undrafted hNone]
    split <;> rfl

theorem StepBounded.leave {cfg : Config} {locals : Locals H} (hInv : StepBounded cfg locals) :
    StepBounded cfg (locals.leaveWaitingLoop cfg) := by
  unfold Locals.leaveWaitingLoop
  dsimp only
  split <;> exact ⟨⟨hInv.state.sized, hInv.state.bounded, hInv.state.seats⟩, hInv.rows,
    hInv.undrafted⟩

theorem waitingTokens_add_le {cfg : Config} {request : Request} {numComputedTokens : Nat}
    (hSome : request.waitingTokens cfg numComputedTokens ≠ 0) :
    numComputedTokens + request.waitingTokens cfg numComputedTokens ≤ request.numTokens := by
  have hLe := (waitingTokens_le cfg request numComputedTokens).1
  omega

theorem bounded_waiting (cfg : Config) (hashing : Hashing H X) (up : Upstream H) :
    WaitingRule cfg hashing up (StepBounded cfg) (StepBounded cfg) where
  last hInv := hInv
  skip _ hInv _ _ := ⟨⟨hInv.state.sized, hInv.state.bounded, hInv.state.seats⟩, hInv.rows,
    hInv.undrafted⟩
  promote {locals id} numLoadedTokens hOk hInv _ hMem hBlocked _ := by
    obtain ⟨hKnown, hUnfinished⟩ := hOk.queues.live_of_queued hMem
    have hBounded := hInv.state.bounded id hKnown hUnfinished
    obtain ⟨status, numComputedTokens, hRequests, hStatus, hLe, hRemote⟩ :=
      promoteRequest_counts cfg hashing locals id numLoadedTokens
        (hInv.state.sized id hKnown hUnfinished).pos
    obtain ⟨st, hEq, hRunning, -⟩ := promoteRequest_eq cfg hashing locals id numLoadedTokens
    have hWaits := hOk.queues.queued id (List.mem_append_left _ hMem)
    apply hInv.queued hOk hMem hRequests
    · omega
    · intro _ _
      by_cases hIs : (locals.st.requests id).status = .waitingForRemoteKvs
      · exact hRemote hIs
      · exact lt_of_le_of_lt hLe (hBounded.ready hWaits hIs)
    · rw [hEq, hRunning]
      exact hInv.state.seats
    · rw [hEq]
      exact fun row hRow => .inl hRow
    · rw [hEq]
  look {locals locals' id found} _ hInv _ _ hFound := by
    obtain ⟨kv, pins, unpins, subBlockMatch, rfl, -, -⟩ := hFound.looked.keeps
    exact ⟨⟨hInv.state.sized, hInv.state.bounded, hInv.state.seats⟩, hInv.rows, hInv.undrafted⟩
  await _ hInv hSeated _ _ := by
    apply hInv.queued hSeated.ok hSeated.queued_locals rfl hSeated.search.numComputedTokens_le
    · exact fun _ hNot => absurd rfl hNot
    · exact hInv.state.seats
    · exact fun row hRow => .inl hRow
    · rfl
  join {start locals id found kv newBlocks ops} _ hInv hSeated _ _ hOne _ _ := by
    have hTokens := waitingTokens_add_le (hOne.trans_ne Nat.one_ne_zero)
    have hRoom := hSeated.hasSeat hInv.state.seats
    apply hInv.queued hSeated.ok hSeated.queued_locals rfl hSeated.search.numComputedTokens_le
    · exact fun hWaits => absurd hWaits (by simp [RequestStatus.isWaiting])
    · exact hRoom
    · intro row hRow
      rcases List.mem_append.mp hRow with hRow | hRow
      · exact .inl hRow
      · rw [List.mem_singleton.mp hRow]
        exact .inr ⟨rfl, hOne ▸ hTokens⟩
    · rfl
  alone {start locals id found kv newBlocks ops} _ hInv hSeated _ _ hSome _ _ := by
    have hTokens := waitingTokens_add_le hSome
    have hRoom := hSeated.hasSeat hInv.state.seats
    have hEntered : StepBounded cfg ((locals.seatWaiting kv ops).admitWaiting id
        found.numComputedTokens
        ((locals.st.requests id).waitingTokens cfg found.numComputedTokens)) := by
      apply hInv.queued hSeated.ok hSeated.queued_locals rfl hSeated.search.numComputedTokens_le
      · exact fun hWaits => absurd hWaits (by simp [RequestStatus.isWaiting])
      · exact hRoom
      · intro row hRow
        rcases List.mem_append.mp hRow with hRow | hRow
        · exact .inl hRow
        · rw [List.mem_singleton.mp hRow]
          exact .inr ⟨rfl, hTokens⟩
      · rfl
    exact hEntered.evict (hSeated.startRunning _ _).scheduledRunning_nodup

/-- A prefill is seated only in a step that no waiting request has entered. -/
theorem Seated.entersFirst {cfg : Config} {hashing : Hashing H X} {up : Upstream H} {id : ReqId}
    {numNewTokens : Nat} {start locals : Locals H} {found : Locals.Computed} {kv : Manager H}
    {newBlocks : Blocks} {ops : List KVCacheCopyOp}
    (hSeated : Seated cfg hashing up id numNewTokens start locals found kv newBlocks ops)
    (hLeft : found.numComputedTokens < (locals.st.requests id).numTokens - 1)
    (hGuard : ¬ ((locals.st.requests id).isPrefill = true ∧
      (locals.scheduledNewReqs ≠ [] ∨ locals.scheduledResumedReqs ≠ []))) :
    locals.scheduledNewReqs = [] ∧ locals.scheduledResumedReqs = [] := by
  by_contra hNot
  apply hGuard
  constructor
  · exact hSeated.isPrefill (by omega)
  · by_contra hBoth
    simp only [not_or, not_not] at hBoth
    exact hNot hBoth

/-- The waiting loop pays what it schedules; a prefill that takes the step has all of it. -/
theorem spends_waiting (cfg : Config) (hashing : Hashing H X) (up : Upstream H) {limit : Nat}
    (hLimit : limit ≤ cfg.maxNumScheduledTokens) :
    WaitingRule cfg hashing up (Locals.Spends limit) fun locals =>
      (locals.numScheduledTokens.map Prod.snd).sum ≤ cfg.maxNumScheduledTokens where
  last {locals} hSpends := by
    unfold Locals.Spends at hSpends
    omega
  skip _ hSpends _ _ := hSpends
  promote {locals id} numLoadedTokens _ hSpends _ _ _ _ := by
    obtain ⟨st, hEq, -⟩ := promoteRequest_eq cfg hashing locals id numLoadedTokens
    rw [hEq]
    exact hSpends
  look {locals locals' id found} _ hSpends _ _ hFound := by
    obtain ⟨kv, pins, unpins, subBlockMatch, rfl, -, -⟩ := hFound.looked.keeps
    exact hSpends
  await _ hSpends _ _ _ := hSpends
  join {start locals id found kv newBlocks ops} _ hSpends hSeated _ _ _ _ _ := by
    obtain ⟨_, _, _, _, hEq, -⟩ := hSeated.search.looked.keeps
    have hBudget : locals.tokenBudget = start.tokenBudget := by rw [hEq]
    have hRoom := hSeated.room.1
    unfold Locals.Spends at hSpends ⊢
    simp only [Locals.admitWaiting, Locals.seatWaiting, List.map_append, List.sum_append,
      List.map_cons, List.map_nil, List.sum_cons, List.sum_nil]
    omega
  alone {start locals id found kv newBlocks ops} _ _ hSeated _ _ _ hLeft hGuard := by
    rw [hSeated.aloneRows (hSeated.entersFirst hLeft hGuard)]
    simpa using (waitingTokens_le cfg (locals.st.requests id) found.numComputedTokens).2

/-! ### A waiting round does not raise -/

/-- What `schedule()` relies on in a connector: an asynchronous load brings tokens that the
request has, a synchronous one leaves a token to compute. -/
def Upstream.MatchesOwn (up : Upstream H) : Prop :=
  ∀ id request numLocal numExternal loadKvAsync, numLocal < request.numTokens →
    up.connectorMatch id request numLocal = some (numExternal, loadKvAsync) →
    if loadKvAsync then 0 < numExternal ∧ numLocal + numExternal ≤ request.numTokens
    else numLocal + numExternal < request.numTokens

section Round

variable {cfg : Config} {hashing : Hashing H X} {up : Upstream H} {id : ReqId}
  {locals locals' : Locals H}

/-- The search for cached tokens ends, with no more of them than the request can use. -/
theorem findComputed_returns (hashing : Hashing H X) (hOwn : up.MatchesOwn)
    (hNone : locals.subBlockMatch = none)
    (hLess : (locals.st.requests id).numComputedTokens < (locals.st.requests id).numTokens) :
    ∃ locals' computed, locals.findComputed cfg hashing up id = some (locals', computed) ∧
      ∀ found, computed = some found → if found.loadKvAsync then found.numExternal ≠ 0
        else found.numComputedTokens < (locals.st.requests id).numTokens := by
  unfold Locals.findComputed
  dsimp only
  split
  · refine ⟨_, _, rfl, fun found hEq => ?_⟩
    cases hEq
    exact hLess
  have hHits : Manager.CachedHits cfg hashing locals.st.kv id (locals.st.requests id)
      (locals.st.kv.getComputedBlocks cfg hashing id (locals.st.requests id)
        (up.foundBlocks locals.st.kv id)).1
      (locals.st.kv.getComputedBlocks cfg hashing id (locals.st.requests id)
        (up.foundBlocks locals.st.kv id)).2 := Manager.getComputedBlocks_spec rfl
  have hShort := hHits.short
  split
  · refine ⟨_, _, rfl, fun found hEq => ?_⟩
    cases hEq
  rename_i numExternal loadKvAsync hConnector
  have hLooked : Looked cfg hashing id (locals.st.kv.getComputedBlocks cfg hashing id
      (locals.st.requests id) (up.foundBlocks locals.st.kv id)).2 locals
      (if cfg.hasConnector = true ∧ (locals.st.requests id).status = .preempted then locals
        else locals.trySubBlockMatch cfg hashing up id (locals.st.kv.getComputedBlocks cfg hashing
          id (locals.st.requests id) (up.foundBlocks locals.st.kv id)).2 numExternal) := by
    split
    · exact .untouched
    · exact trySubBlockMatch_looked ..
  have hSub := hLooked.short hHits hNone (by omega)
  have hExternal : if loadKvAsync then 0 < numExternal ∧
        (locals.st.kv.getComputedBlocks cfg hashing id (locals.st.requests id)
          (up.foundBlocks locals.st.kv id)).2 + numExternal ≤ (locals.st.requests id).numTokens
      else (locals.st.kv.getComputedBlocks cfg hashing id (locals.st.requests id)
        (up.foundBlocks locals.st.kv id)).2 + numExternal < (locals.st.requests id).numTokens := by
    split at hConnector
    · exact hOwn _ _ _ _ _ (by omega) hConnector
    · cases hConnector
      simp only [Bool.false_eq_true, if_false]
      omega
  generalize (if cfg.hasConnector = true ∧ (locals.st.requests id).status = .preempted then locals
    else locals.trySubBlockMatch cfg hashing up id (locals.st.kv.getComputedBlocks cfg hashing
      id (locals.st.requests id) (up.foundBlocks locals.st.kv id)).2 numExternal) = tried at hSub ⊢
  generalize (tried.subBlockMatch.map (·.numTokens)).getD 0 = numSubBlock at hSub ⊢
  by_cases hWins : 0 < numSubBlock ∧ 0 < numExternal
  · -- the partial match goes before the connector
    simp only [hWins, and_self, decide_true, if_true, Bool.not_true, Bool.and_false, Nat.add_zero]
    rw [if_neg (by omega)]
    refine ⟨_, _, rfl, fun found hEq => ?_⟩
    cases hEq
    simp only [Bool.false_eq_true, if_false]
    omega
  · simp only [hWins, decide_false, Bool.false_eq_true, if_false, Bool.not_false, Bool.and_true]
    cases loadKvAsync with
    | true =>
        simp only [if_true] at hExternal
        rw [if_neg (by omega)]
        refine ⟨_, _, rfl, fun found hEq => ?_⟩
        cases hEq
        simp only [if_true]
        omega
    | false =>
        simp only [Bool.false_eq_true, if_false] at hExternal
        rw [if_neg (by omega)]
        refine ⟨_, _, rfl, fun found hEq => ?_⟩
        cases hEq
        simp only [Bool.false_eq_true, if_false]
        omega

/-- A partial match is looked for when nothing is computed, and adds to the local tokens. -/
theorem Found.matched {found : Locals.Computed} (hNone : locals.subBlockMatch = none)
    (hFound : Found cfg hashing up id locals locals' found) (hSome : locals'.subBlockMatch ≠ none) :
    (locals.st.requests id).numComputedTokens = 0 ∧ found.numLocal < found.numComputedTokens ∧
      2 ≤ (locals.st.requests id).numTokens := by
  obtain ⟨subBlockMatch, hMatch⟩ := Option.ne_none_iff_exists'.mp hSome
  obtain ⟨subBlockSize, hSize, hPartial, -⟩ := hFound.looked.partialMatch hNone hMatch
  obtain ⟨_, numMatched, -, -, hTokens, hMatched, -, hLess⟩ := hPartial.exists_found
  have hPos := Nat.mul_pos hMatched (cfg.subBlockSize_fits subBlockSize hSize).1
  have hSub := hFound.numSubBlock
  rw [hMatch, Option.map_some, Option.getD_some, hTokens] at hSub
  rcases hFound.computed with ⟨hZero, hSum, -⟩ | ⟨-, -, hSame, -⟩
  · exact ⟨hZero, by omega, by omega⟩
  · exact absurd (hSame ▸ hNone) hSome

/-- A request that gets a partial match has no blocks yet. -/
theorem Found.unheld {found : Locals.Computed} (hOk : WaitingOk cfg locals)
    (hNone : locals.subBlockMatch = none)
    (hMem : id ∈ locals.st.waiting ++ locals.st.skippedWaiting)
    (hReady : (locals.st.requests id).isBlocked = false)
    (hFound : Found cfg hashing up id locals locals' found) (hSome : locals'.subBlockMatch ≠ none) :
    locals.st.kv.reqToBlocks id = Blocks.empty := by
  have hRequest := hOk.queues.request id
  have hWaits := hOk.queues.queued id (List.mem_append_left _ hMem)
  by_cases hConnector : cfg.hasConnector = true
  · have hNew : (locals.st.requests id).status.isNew = true := by
      have hResumes := hFound.resumes hSome
      cases hCase : (locals.st.requests id).status <;>
        simp_all [RequestStatus.isWaiting, RequestStatus.isNew, Request.isBlocked]
    obtain ⟨hZero, -, hTwo⟩ := hFound.matched hNone hSome
    exact hRequest.new_blocks hNew hZero hTwo
  · exact (hRequest.waiting_blocks (by simpa using hConnector) hWaits).2.2

/-- A match is never left without a destination. -/
theorem allocateWaiting_returns {found : Locals.Computed}
    (hOk : WaitingOk cfg locals) (hNone : locals.subBlockMatch = none)
    (hMem : id ∈ locals.st.waiting ++ locals.st.skippedWaiting)
    (hReady : (locals.st.requests id).isBlocked = false)
    (hSized : (locals.st.requests id).Sized cfg)
    (hFound : Found cfg hashing up id locals locals' found) (numNewTokens : Nat) :
    ∃ result, locals'.allocateWaiting cfg up id found numNewTokens = some result := by
  by_cases hMatch : locals'.subBlockMatch = none
  · unfold Locals.allocateWaiting
    dsimp only
    split
    · exact ⟨_, rfl⟩
    · rw [hMatch]
      exact ⟨_, rfl⟩
  · have hShort := hFound.hits.short
    have hPos := hSized.pos
    have hFits := hSized.fits
    have hMore := (hFound.matched hNone hMatch).2.1
    apply allocateWaiting_total up hFound.looked hNone
      (hFound.unheld hOk hNone hMem hReady hMatch)
    · unfold Locals.Computed.numSlots
      omega
    · omega

/-- A request that is looked at is admitted, awaits its load or is left. -/
theorem tryAdmit_returns {found : Locals.Computed} (hOk : WaitingOk cfg locals)
    (hBudget : 0 < cfg.maxNumScheduledTokens) (hNone : locals.subBlockMatch = none)
    (hMem : id ∈ locals.st.waiting ++ locals.st.skippedWaiting)
    (hReady : (locals.st.requests id).isBlocked = false)
    (hSized : (locals.st.requests id).Sized cfg)
    (hFound : Found cfg hashing up id locals locals' found)
    (hLoads : if found.loadKvAsync then found.numExternal ≠ 0
      else found.numComputedTokens < (locals.st.requests id).numTokens) :
    ∃ next, locals'.tryAdmit cfg up id found = some next := by
  have hWaits := hOk.queues.queued id (List.mem_append_left _ hMem)
  obtain ⟨_, _, _, _, hLocals, -⟩ := hFound.looked.keeps
  have hSame : locals'.st.requests id = locals.st.requests id := by rw [hLocals]
  have hStatus : (locals'.st.requests id).status = .waiting ∨
      (locals'.st.requests id).status = .preempted := by
    rw [hSame]
    cases hCase : (locals.st.requests id).status <;>
      simp_all [RequestStatus.isWaiting, Request.isBlocked]
  unfold Locals.tryAdmit
  by_cases hAsync : found.loadKvAsync = true
  · rw [if_pos hAsync] at hLoads ⊢
    rw [if_neg hLoads]
    obtain ⟨result, hAlloc⟩ := allocateWaiting_returns hOk hNone hMem hReady hSized hFound 0
    rw [hAlloc]
    cases result with
    | none => exact ⟨_, rfl⟩
    | some seated => exact ⟨_, rfl⟩
  · rw [if_neg hAsync] at hLoads ⊢
    have hTokens : (locals.st.requests id).waitingTokens cfg found.numComputedTokens ≠ 0 ∧
        ((locals.st.requests id).numTokens ≤ found.numComputedTokens + 1 →
          (locals.st.requests id).waitingTokens cfg found.numComputedTokens = 1) := by
      unfold Request.waitingTokens
      dsimp only
      split <;> omega
    simp only [hSame]
    rw [if_neg hTokens.1]
    split
    · exact ⟨_, rfl⟩
    obtain ⟨result, hAlloc⟩ := allocateWaiting_returns hOk hNone hMem hReady hSized hFound
      ((locals.st.requests id).waitingTokens cfg found.numComputedTokens)
    rw [hAlloc]
    cases result with
    | none => exact ⟨_, rfl⟩
    | some seated =>
        obtain ⟨kv, newBlocks, ops, -, -, rfl⟩ := allocateWaiting_spec hAlloc
        simp only [Locals.joinStep]
        have hInvalid : ¬ (((locals'.seatWaiting kv ops).st.requests id).status ≠ .waiting ∧
            ((locals'.seatWaiting kv ops).st.requests id).status ≠ .preempted) := fun hBoth =>
          hStatus.elim hBoth.1 hBoth.2
        rw [if_neg hInvalid]
        split
        · exact ⟨_, rfl⟩
        rename_i hDecode
        rw [admitWaiting_isPrefill, hSame] at hDecode
        rw [if_neg (not_not.mpr (hTokens.2 (by omega)))]
        exact ⟨_, rfl⟩

theorem waitingRound_returns {budget : DecodeBatchBudget} (hOk : WaitingOk cfg locals)
    (hOwn : up.MatchesOwn) (hBudget : 0 < cfg.maxNumScheduledTokens)
    (hNone : locals.subBlockMatch = none) (hInv : StepBounded cfg locals) :
    ∃ next, locals.waitingRound cfg hashing up budget = some next := by
  unfold Locals.waitingRound
  split
  · exact ⟨_, rfl⟩
  rename_i id hPeek
  have hMem := peekWaiting_mem hPeek
  dsimp only
  split
  · exact ⟨_, rfl⟩
  split
  · exact ⟨_, rfl⟩
  rename_i ready hPromoted
  have hReady : WaitingOk cfg ready ∧ StepBounded cfg ready ∧ ready.subBlockMatch = none ∧
      id ∈ ready.st.waiting ++ ready.st.skippedWaiting ∧
      (ready.st.requests id).isBlocked = false := by
    split at hPromoted
    · rename_i hBlocked
      simp only [Option.map_eq_some_iff] at hPromoted
      obtain ⟨numLoadedTokens, hLoaded, rfl⟩ := hPromoted
      obtain ⟨hKnown, hUnfinished⟩ := hOk.queues.live_of_queued hMem
      refine ⟨hOk.promote hashing hBlocked _, (bounded_waiting cfg hashing up).promote _ hOk hInv
        hNone hMem hBlocked hLoaded, ?_, ?_, ?_⟩
      · obtain ⟨st, hEq, -⟩ := promoteRequest_eq cfg hashing locals id numLoadedTokens
        rw [hEq]
        exact hNone
      · obtain ⟨st, hEq, -, hWaiting, hSkipped⟩ :=
          promoteRequest_eq cfg hashing locals id numLoadedTokens
        rw [hEq]
        simpa [hWaiting, hSkipped] using hMem
      · obtain ⟨status, numComputedTokens, hRequests, hStatus, -⟩ :=
          promoteRequest_counts cfg hashing locals id numLoadedTokens
            (hInv.state.sized id hKnown hUnfinished).pos
        rw [hRequests, Function.update_self]
        rcases hStatus with hStatus | hStatus <;> simp [Request.isBlocked, hStatus]
    · rename_i hFree
      cases hPromoted
      exact ⟨hOk, hInv, hNone, hMem, by simpa using hFree⟩
  obtain ⟨hOk, hInv, hNone, hMem, hReady⟩ := hReady
  have hSame : { ready with subBlockMatch := none } = ready := by rw [← hNone]
  rw [hSame]
  have hWaits := hOk.queues.queued id (List.mem_append_left _ hMem)
  obtain ⟨hKnown, hUnfinished⟩ := hOk.queues.live_of_queued hMem
  have hSized := hInv.state.sized id hKnown hUnfinished
  have hLocal : (ready.st.requests id).status ≠ .waitingForRemoteKvs := by
    intro hEq
    simp [Request.isBlocked, hEq] at hReady
  obtain ⟨locals', computed, hFind, hLoads⟩ := findComputed_returns hashing hOwn hNone
    ((hInv.state.bounded id hKnown hUnfinished).ready hWaits hLocal)
  rw [hFind]
  rcases findComputed_spec hNone hFind with ⟨rfl, rfl⟩ | ⟨found, rfl, hFound⟩
  · exact ⟨_, rfl⟩
  · exact tryAdmit_returns hOk hBudget hNone hMem hReady hSized hFound (hLoads found rfl)

end Round

/-! ### The call -/

/-- What the assertions on the finished step read. -/
structure StepFits (cfg : Config) (locals : Locals H) : Prop where
  tokens : (locals.numScheduledTokens.map Prod.snd).sum ≤ cfg.maxNumScheduledTokens
  seats : locals.st.running.length ≤ cfg.maxNumRunningReqs

theorem StepFits.consistent {cfg : Config} {locals : Locals H} (hFits : StepFits cfg locals)
    (hBooks : Books locals) : locals.consistent cfg = true := by
  have hLength := hBooks.nodup.length_le_of_subset hBooks.running
  simp only [Locals.consistent, decide_eq_true_eq]
  exact ⟨hFits.tokens, hFits.seats, hLength⟩

/-- The rounds of the waiting loop. -/
theorem waitingLoop_total {cfg : Config} (hashing : Hashing H X) {up : Upstream H}
    (hOwn : up.MatchesOwn) (hBudget : 0 < cfg.maxNumScheduledTokens) (budget : DecodeBatchBudget)
    {limit : Nat} (hLimit : limit ≤ cfg.maxNumScheduledTokens) {locals : Locals H}
    (hTotal : RunningTotal cfg limit locals) (hNoPreempted : locals.preemptedReqs = [])
    (fuel : Nat) :
    ∃ last, loop (Locals.waitingRound cfg hashing up budget) fuel locals = some last ∧
      Books (last.leaveWaitingLoop cfg) ∧ StepFits cfg (last.leaveWaitingLoop cfg) := by
  have hStart : WaitingOk cfg locals :=
    ⟨hTotal.ok.noSkipped ▸ hTotal.ok.queues, hTotal.ok.books, hNoPreempted⟩
  have hRule := spends_waiting cfg hashing up hLimit
  have hLeave : ∀ last : Locals H, WaitingOk cfg last → StepBounded cfg last →
      (last.numScheduledTokens.map Prod.snd).sum ≤ cfg.maxNumScheduledTokens →
      Books (last.leaveWaitingLoop cfg) ∧ StepFits cfg (last.leaveWaitingLoop cfg) := by
    intro last hOk hInv hTokens
    apply And.intro hOk.leave.books
    unfold Locals.leaveWaitingLoop
    dsimp only
    split <;> exact ⟨hTokens, hInv.state.seats⟩
  apply loop_total (fun locals => (WaitingOk cfg locals ∧ StepBounded cfg locals ∧
    locals.Spends limit) ∧ locals.subBlockMatch = none)
  · exact fun last hInv => hLeave last hInv.1.1 hInv.1.2.1 (hRule.last hInv.1.2.2)
  · rintro locals ⟨⟨hOk, hInv, hSpends⟩, hNone⟩
    obtain ⟨next, hRound⟩ := waitingRound_returns hOk hOwn hBudget hNone hInv
    obtain ⟨ruled, hNextOk, hRuled⟩ :=
      waitingRound_rule (bounded_waiting cfg hashing up) hOk hInv hNone hRound
    obtain ⟨paid, -, hPaid⟩ := waitingRound_rule hRule hOk hSpends hNone hRound
    rcases hRuled with ⟨rfl, hLast⟩ | ⟨rfl, hNextInv, hNextNone⟩
    · obtain ⟨hEq, hTokens⟩ | ⟨hEq, -⟩ := hPaid <;> cases hEq
      exact .inl ⟨_, hRound, hLeave _ hNextOk hLast hTokens⟩
    · obtain ⟨hEq, -⟩ | ⟨hEq, hNextSpends, -⟩ := hPaid <;> cases hEq
      exact .inr ⟨_, hRound, ⟨hNextOk, hNextInv, hNextSpends⟩, hNextNone⟩
  · exact ⟨⟨hStart, hTotal.inv, hTotal.spends⟩, hTotal.ok.noMatch⟩

theorem scheduleWaiting_eq (cfg : Config) (hashing : Hashing H X) (up : Upstream H)
    (budget : DecodeBatchBudget) (locals : Locals H) : ∃ runningPrefill : Bool,
      locals.scheduleWaiting cfg hashing up budget =
        if locals.preemptedReqs ≠ [] ∨ up.pausedAll ∨ up.pausedNew ∨ runningPrefill then
          some locals
        else
          (loop (Locals.waitingRound cfg hashing up budget)
            (locals.st.waiting.length + locals.st.skippedWaiting.length + 1) locals).map
              (Locals.leaveWaitingLoop cfg) :=
  ⟨_, rfl⟩

theorem waiting_total {cfg : Config} (hashing : Hashing H X) {up : Upstream H}
    (hOwn : up.MatchesOwn) (hBudget : 0 < cfg.maxNumScheduledTokens) (budget : DecodeBatchBudget)
    {limit : Nat} (hLimit : limit ≤ cfg.maxNumScheduledTokens) {locals : Locals H}
    (hTotal : RunningTotal cfg limit locals) :
    ∃ locals', locals.scheduleWaiting cfg hashing up budget = some locals' ∧ Books locals' ∧
      StepFits cfg locals' := by
  have hIdle : StepFits cfg locals := by
    have hSpends := hTotal.spends
    unfold Locals.Spends at hSpends
    exact ⟨by omega, hTotal.inv.state.seats⟩
  obtain ⟨runningPrefill, hEq⟩ := scheduleWaiting_eq cfg hashing up budget locals
  rw [hEq]
  split
  · exact ⟨locals, rfl, hTotal.ok.books, hIdle⟩
  · rename_i hGuard
    have hNoPreempted : locals.preemptedReqs = [] := by
      by_contra hNot
      exact hGuard (.inl hNot)
    obtain ⟨last, hLoop, hBooks, hFits⟩ := waitingLoop_total hashing hOwn hBudget budget hLimit
      hTotal hNoPreempted (locals.st.waiting.length + locals.st.skippedWaiting.length + 1)
    rw [hLoop]
    exact ⟨_, rfl, hBooks, hFits⟩

theorem schedule_returns {cfg : Config} (hashing : Hashing H X) {up : Upstream H}
    (hOwn : up.MatchesOwn) (hBudget : 0 < cfg.maxNumScheduledTokens)
    (hCap : 0 < cfg.maxNumRunningReqs / cfg.pipelineParallelSize) {s : State H}
    (hQueues : Queues cfg s []) (hState : BoundedOk cfg s) :
    ∃ s', schedule cfg hashing up s = some s' := by
  obtain ⟨mid, hRunning, hTotal⟩ := running_total hashing up hQueues hState
    (DecodeBatchBudget.forStep cfg (s.decodeDemand up.numReadyRemoteKv)) hCap (s.running.length + 1)
  obtain ⟨last, hWaiting, hBooks, hFits⟩ := waiting_total hashing hOwn hBudget
    (DecodeBatchBudget.forStep cfg (s.decodeDemand up.numReadyRemoteKv))
    (by split <;> omega) hTotal
  refine ⟨last.finish cfg hashing, ?_⟩
  unfold schedule Locals.loops
  dsimp only
  rw [if_neg (by exact Nat.ne_of_gt hCap), hRunning, Option.bind_some, hWaiting, Option.bind_some,
    if_pos (hFits.consistent hBooks)]

/-! ### Runs -/

theorem Request.Bounded.afterOutput {cfg : Config} {result : RunnerOutput}
    {output : SchedulerOutput} {id : ReqId} {request : Request} (hBounded : request.Bounded cfg)
    (hGoes : (request.afterOutput cfg result output id).2 = false) :
    (request.afterOutput cfg result output id).1.Bounded cfg := by
  have hComputed := hBounded.computed
  unfold Request.afterOutput at hGoes ⊢
  dsimp only at hGoes ⊢
  generalize (if result.generated output id = [] then 0 else
    (output.scheduledSpecDecodeTokens id).length + 1 - (result.generated output id).length) =
      numRejected at hGoes ⊢
  obtain ⟨hEq, -⟩ := receive_goes hGoes
  rw [hEq]
  constructor
  · show request.numComputedTokens - numRejected < cfg.maxModelLen
    omega
  · intro hNone
    have hDemand := hBounded.demand hNone
    simp only [Request.reject, Request.numTokens, List.length_append] at hDemand ⊢
    split <;> omega
  · exact hBounded.undrafted
  · intro hWaits hLocal
    have hReady := hBounded.ready hWaits hLocal
    simp only [Request.reject, Request.numTokens, List.length_append] at hReady ⊢
    omega

theorem bounded_settle (cfg : Config) (hashing : Hashing H X) (result : RunnerOutput)
    (output : SchedulerOutput) :
    SettleRule cfg hashing result output fun _ s => BoundedOk cfg s where
  pass _ hState _ := hState
  receive {s id todo} hQueues hState hAdmitted hKnown hUnfinished hGoes := by
    have hSized : SizedOk cfg (s.receiveOutput cfg hashing result output id) :=
      @SettleRule.receive H X _ cfg hashing result output _ (sized_settle cfg hashing result output)
        s id todo hQueues hState.sized hAdmitted hKnown hUnfinished hGoes
    apply hState.change hSized (fun other hNe => Function.update_of_ne hNe ..) _ hState.seats
    intro _ _
    have hSelf : (s.receiveOutput cfg hashing result output id).requests id =
        ((s.requests id).afterOutput cfg result output id).1 := Function.update_self ..
    rw [hSelf]
    exact (hState.bounded id hKnown hUnfinished).afterOutput hGoes
  stop {s id todo mode} hQueues hState hKnown hUnfinished hReceived hDelayed := by
    have hSized : SizedOk cfg ((s.receiveOutput cfg hashing result output id).freeRequest cfg
        hashing mode id) :=
      @SettleRule.stop H X _ cfg hashing result output _ (sized_settle cfg hashing result output)
        s id todo mode hQueues hState.sized hKnown hUnfinished hReceived hDelayed
    apply hState.change hSized (fun other (hNe : other ≠ id) => ?_) (fun _ hStill => ?_)
    · exact le_trans (List.length_filter_le ..) hState.seats
    · simp [State.freeRequest, State.modifyRequest, State.freeRequestBlocks, State.popWaiting,
        State.receiveOutput, hNe]
    · exact absurd (by simp [State.freeRequest, State.modifyRequest]) hStill

/-- What the step takes of a request keeps it bounded once it is advanced. -/
theorem Request.Bounded.advance {cfg : Config} {request : Request} (hBounded : request.Bounded cfg)
    {numNewTokens : Nat} (hTakes : request.Takes cfg numNewTokens)
    (hStatus : request.status = .running) (drafts : List Token) :
    (advanceRequest cfg numNewTokens drafts request).Bounded cfg := by
  have hIdle : request.status.isWaiting = false := by rw [hStatus]; rfl
  unfold advanceRequest
  dsimp only
  split
  · refine ⟨hTakes.computed, fun hNone => ?_, fun hNone => ?_, fun hWaits => ?_⟩
    · have hDemand := hTakes.demand hNone
      simp only [Request.numTokens] at hDemand ⊢
      omega
    · show List.replicate cfg.numSpecTokens (-1) = []
      rw [hNone, List.replicate_zero]
    · exact absurd hWaits (by simp [hIdle])
  · refine ⟨hTakes.computed, hTakes.demand, hBounded.undrafted, fun hWaits => ?_⟩
    exact absurd hWaits (by simp [hIdle])

/-- The step is fixed: every request of a row is advanced. -/
theorem StepBounded.finish {cfg : Config} {hashing : Hashing H X} {locals : Locals H}
    (hInv : StepBounded cfg locals) (hOk : LoopsOk cfg locals)
    (hSized : SizedOk cfg (locals.finish cfg hashing)) :
    BoundedOk cfg (locals.finish cfg hashing) where
  sized := hSized
  bounded id hKnown hUnfinished := by
    cases hLookup : locals.numScheduledTokens.lookup id with
    | none =>
        simp only [Locals.finish, hLookup] at hKnown hUnfinished ⊢
        exact hInv.state.bounded id hKnown hUnfinished
    | some numNewTokens =>
        have hRow := Dict.mem_of_lookup hLookup
        have hRuns := hOk.books.running id (hOk.books.mem_iff.mp (List.mem_map_of_mem hRow))
        have hStatus := (hOk.queues.request id).running.mp hRuns
        simp only [Locals.finish, hLookup]
        exact (hInv.state.bounded id (by simp [hStatus]) (by simp [hStatus])).advance
          (hInv.rows _ hRow) hStatus _
  seats := hInv.state.seats

theorem bounded_run (cfg : Config) (hashing : Hashing H X) :
    RunRule cfg hashing (fun _ => True) (BoundedOk cfg) where
  initial := ⟨(sized_run cfg hashing).initial, fun _ hKnown => absurd rfl hKnown, Nat.zero_le _⟩
  add {s s' id new} hQueues hState hAdd := by
    have hSized := (sized_run cfg hashing).add hQueues hState.sized hAdd
    obtain ⟨-, hPrompt, hFits, -, _, _, -, rfl⟩ := addRequest_cases hAdd
    apply hState.change hSized (fun other hNe => Function.update_of_ne hNe ..) _ hState.seats
    intro _ _
    simp only [Function.update_self]
    exact ⟨Nat.zero_lt_of_lt hFits, fun _ => Nat.zero_le _, fun _ => rfl,
      fun _ _ => List.length_pos_iff.mpr hPrompt⟩
  schedule {s up locals} hLawful hQueues hState hLt hLoops hOk hConsistent := by
    have hSized := (sized_run cfg hashing).schedule hLawful hQueues hState.sized hLt hLoops hOk
      hConsistent
    have hStart : StepBounded cfg (Locals.start cfg up s) :=
      ⟨hState, by simp [Locals.start], fun _ _ => rfl⟩
    have hInv := (loops_rule (StepBounded cfg) (bounded_running cfg hashing up)
      (bounded_waiting cfg hashing up) hQueues hStart (fun _ _ h _ => h) (fun _ _ h _ _ => h)
      (fun mid _ h => h.leave) hLoops).2
    exact hInv.finish hOk hSized
  update {s result output inFlight} _ hState _ hPopped hAdmitted := by
    have hDone := (settle_rule (bounded_settle cfg hashing result output) hPopped hAdmitted
      ⟨hState.sized, hState.bounded, hState.seats⟩).2
    unfold State.settleOutput
    split
    · exact hDone
    · exact ⟨hDone.sized, hDone.bounded, hDone.seats⟩
  drafts {s} drafts _ hState := by
    unfold setDrafts
    dsimp only
    split
    · exact hState
    · refine hState.redraft (fun other => ?_) (by rfl)
      by_cases hEq : other = drafts.1
      · subst hEq
        refine ⟨_, Function.update_self .., fun hNone _ => ?_⟩
        rw [hNone, List.take_zero, ite_self]
      · exact ⟨_, Function.update_of_ne hEq .., fun _ hNil => hNil⟩
  free {s id mode} hQueues hState hKnown hUnfinished hDelayed := by
    have hSized := (sized_run cfg hashing).free hQueues hState.sized hKnown hUnfinished hDelayed
    apply hState.change hSized (fun other hNe => Function.update_of_ne hNe ..) (fun _ hStill => ?_)
    · exact le_trans (List.length_filter_le ..) hState.seats
    · exact absurd (by simp [State.freeRequest, State.modifyRequest]) hStill
  releaseDeferred _ hState _ := ⟨hState.sized, hState.bounded, hState.seats⟩
  freeDelayed _ hState _ := ⟨hState.sized, hState.bounded, hState.seats⟩

end VllmRbln.Scheduler
