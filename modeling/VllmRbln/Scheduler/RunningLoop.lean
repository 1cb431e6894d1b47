import VllmRbln.Scheduler.Queues

/-! What the running loop of `schedule()` can do, and the rule that lifts a property of
its two moves, preempting a request and scheduling one, to the whole loop. -/
namespace VllmRbln.Scheduler

set_option linter.unusedSectionVars false

open SubBlock Run

variable {H X : Type} [DecidableEq H]

/-- The lists and tables of a step agree: each scheduled request runs, is listed once,
and has its token count. -/
structure Books (locals : Locals H) : Prop where
  keys : (locals.numScheduledTokens.map Prod.fst).Perm locals.scheduledReqs
  nodup : locals.scheduledReqs.Nodup
  running : ∀ id ∈ locals.scheduledReqs, id ∈ locals.st.running

/-- The step during the running loop. -/
structure RunningOk (cfg : Config) (locals : Locals H) : Prop where
  queues : Queues cfg locals.st []
  books : Books locals
  passed : ∀ id ∈ locals.scheduledRunningReqs, id ∈ locals.st.running.take locals.reqIndex
  noNew : locals.scheduledNewReqs = []
  noResumed : locals.scheduledResumedReqs = []
  noSkipped : locals.stepSkippedWaiting = []
  noMatch : locals.subBlockMatch = none

theorem RunningOk.scheduledReqs_eq {cfg : Config} {locals : Locals H}
    (hOk : RunningOk cfg locals) : locals.scheduledReqs = locals.scheduledRunningReqs := by
  simp [Locals.scheduledReqs, hOk.noNew, hOk.noResumed]

/-- How `preempt` leaves the step: the request is gone from it, and the rest stays. -/
structure Preempted (cfg : Config) (hashing : Hashing H X) (up : Upstream H) (id : ReqId)
    (locals locals' : Locals H) : Prop where
  st : locals'.st = State.preemptRequest cfg hashing (.ofPreempted cfg (up.deferFree id))
    { locals.st with running := locals.st.running.filter (· ≠ id) } id
  preemptedReqs : locals'.preemptedReqs = locals.preemptedReqs ++ [id]
  scheduledRunningReqs :
    locals'.scheduledRunningReqs = locals.scheduledRunningReqs.filter (· ≠ id)
  numScheduledTokens :
    locals'.numScheduledTokens = locals.numScheduledTokens.filter (·.1 ≠ id)
  scheduledNewReqs : locals'.scheduledNewReqs = locals.scheduledNewReqs
  scheduledResumedReqs : locals'.scheduledResumedReqs = locals.scheduledResumedReqs
  stepSkippedWaiting : locals'.stepSkippedWaiting = locals.stepSkippedWaiting
  subBlockMatch : locals'.subBlockMatch = locals.subBlockMatch
  reqToNewBlocks : ∀ other, other ≠ id → locals'.reqToNewBlocks other = locals.reqToNewBlocks other
  scheduledSpecDecodeTokens : ∀ other, other ≠ id →
    locals'.scheduledSpecDecodeTokens other = locals.scheduledSpecDecodeTokens other
  droppedDrafts : locals'.scheduledSpecDecodeTokens id =
    if id ∈ locals.scheduledRunningReqs then [] else locals.scheduledSpecDecodeTokens id
  tokenBudget : id ∉ locals.scheduledRunningReqs → locals'.tokenBudget = locals.tokenBudget
  reqIndex : locals'.reqIndex =
    if id ∈ locals.scheduledRunningReqs then locals.reqIndex - 1 else locals.reqIndex

private theorem filter_keys_of_notMem {rows : List (ReqId × Nat)} {id : ReqId}
    (hNot : id ∉ rows.map Prod.fst) : rows.filter (·.1 ≠ id) = rows := by
  rw [List.filter_eq_self]
  intro row hRow
  simpa using ne_of_mem_of_not_mem (List.mem_map_of_mem hRow) hNot

theorem preempt_spec {cfg : Config} {hashing : Hashing H X} {up : Upstream H} {id : ReqId}
    {locals locals' : Locals H} (hOk : RunningOk cfg locals)
    (hFcfs : cfg.priorityPolicy = false → id ∉ locals.scheduledRunningReqs)
    (hPreempt : locals.preempt cfg hashing up id = some locals') :
    Preempted cfg hashing up id locals locals' := by
  by_cases hMem : id ∈ locals.scheduledRunningReqs
  · have hPriority : cfg.priorityPolicy = true := by
      by_contra hNot
      exact hFcfs (by simpa using hNot) hMem
    simp only [Locals.preempt, hPriority, hMem, and_self, if_true, Locals.unschedule] at hPreempt
    split at hPreempt
    · cases hPreempt
    · simp only [Option.pure_def, Option.bind_eq_bind, Option.bind_some,
        Option.some.injEq] at hPreempt
      subst hPreempt
      exact ⟨rfl, rfl, rfl, rfl, rfl, rfl, rfl, rfl, fun _ hNe => Function.update_of_ne hNe ..,
        fun _ hNe => Function.update_of_ne hNe .., by simp [hMem], fun hNot => absurd hMem hNot,
        by simp [hMem]⟩
  · have hKeys : id ∉ locals.numScheduledTokens.map Prod.fst := by
      rw [hOk.books.keys.mem_iff, hOk.scheduledReqs_eq]
      exact hMem
    simp only [Locals.preempt, hMem, and_false, if_false, Option.pure_def, Option.bind_eq_bind,
      Option.bind_some, Option.some.injEq] at hPreempt
    subst hPreempt
    refine ⟨rfl, rfl, ?_, ?_, rfl, rfl, rfl, rfl, fun _ _ => rfl, fun _ _ => rfl, by simp [hMem],
      fun _ => rfl, ?_⟩
    · exact (List.filter_eq_self.mpr fun other hOther =>
        by simpa using ne_of_mem_of_not_mem hOther hMem).symm
    · exact (filter_keys_of_notMem hKeys).symm
    · simp [hMem]

private theorem mem_take_filter {running : List ReqId} {index : Nat} {id other : ReqId}
    (hMem : other ∈ running.take index) (hNe : other ≠ id) :
    other ∈ (running.filter (· ≠ id)).take index ∧
      (id ∈ running.take index → other ∈ (running.filter (· ≠ id)).take (index - 1)) := by
  have hSplit : running.filter (· ≠ id) =
      (running.take index).filter (· ≠ id) ++ (running.drop index).filter (· ≠ id) := by
    rw [← List.filter_append, List.take_append_drop]
  have hKept : other ∈ (running.take index).filter (· ≠ id) := by simp [hMem, hNe]
  have hTake : (running.take index).length ≤ index := by simp
  have hLen := List.length_filter_le (· ≠ id) (running.take index)
  constructor
  · rw [hSplit, List.take_append, List.take_of_length_le (le_trans hLen hTake)]
    exact List.mem_append_left _ hKept
  · intro hIn
    have hShort : ((running.take index).filter (· ≠ id)).length < (running.take index).length :=
      List.length_filter_lt_length_iff_exists.mpr ⟨id, hIn, by simp⟩
    rw [hSplit, List.take_append, List.take_of_length_le (by omega)]
    exact List.mem_append_left _ hKept

/-- A preemption keeps the step in order. -/
theorem RunningOk.preempted {cfg : Config} {hashing : Hashing H X} {up : Upstream H} {id : ReqId}
    {locals locals' : Locals H} (hOk : RunningOk cfg locals) (hMem : id ∈ locals.st.running)
    (hPre : Preempted cfg hashing up id locals locals') : RunningOk cfg locals' where
  queues := by
    rw [hPre.st]
    exact hOk.queues.preempt hashing (Queues.FreeMode.ofPreempted_ne cfg _) hMem
  books := by
    have hScheduled : locals'.scheduledReqs = locals.scheduledReqs.filter (· ≠ id) := by
      simp [Locals.scheduledReqs, hPre.scheduledRunningReqs, hPre.scheduledNewReqs,
        hPre.scheduledResumedReqs, hOk.noNew, hOk.noResumed]
    refine ⟨?_, ?_, ?_⟩
    · have hKeys := hOk.books.keys.filter (· ≠ id)
      rw [List.filter_map] at hKeys
      rw [hScheduled, hPre.numScheduledTokens]
      exact hKeys
    · rw [hScheduled]
      exact hOk.books.nodup.filter _
    · intro other hOther
      rw [hScheduled, List.mem_filter] at hOther
      rw [hPre.st]
      exact List.mem_filter.mpr ⟨hOk.books.running other hOther.1, hOther.2⟩
  passed other hOther := by
    rw [hPre.scheduledRunningReqs, List.mem_filter] at hOther
    have hNe : other ≠ id := by simpa using hOther.2
    obtain ⟨hSame, hLess⟩ := mem_take_filter (hOk.passed other hOther.1) hNe
    have hRunning : locals'.st.running = locals.st.running.filter (· ≠ id) := by
      rw [hPre.st]
      rfl
    rw [hPre.reqIndex, hRunning]
    split
    · rename_i hIn
      exact hLess (hOk.passed id hIn)
    · exact hSame
  noNew := hPre.scheduledNewReqs.trans hOk.noNew
  noResumed := hPre.scheduledResumedReqs.trans hOk.noResumed
  noSkipped := hPre.stepSkippedWaiting.trans hOk.noSkipped
  noMatch := hPre.subBlockMatch.trans hOk.noMatch

/-- Within a round for `id`: it runs, no further down than the index, it is not
scheduled yet, and under FCFS it is at the index, so that every victim before it comes
from behind. -/
structure InRound (cfg : Config) (id : ReqId) (locals : Locals H) : Prop where
  ok : RunningOk cfg locals
  reached : id ∈ locals.st.running.take (locals.reqIndex + 1)
  unscheduled : id ∉ locals.scheduledRunningReqs
  fcfs : cfg.priorityPolicy = false → locals.st.running[locals.reqIndex]? = some id

theorem InRound.running {cfg : Config} {id : ReqId} {locals : Locals H}
    (hRound : InRound cfg id locals) : id ∈ locals.st.running :=
  List.mem_of_mem_take hRound.reached

/-- A round starts at the request under the index. -/
theorem RunningOk.inRound {cfg : Config} {id : ReqId} {locals : Locals H}
    (hOk : RunningOk cfg locals) (hIndex : locals.st.running[locals.reqIndex]? = some id) :
    InRound cfg id locals where
  ok := hOk
  reached := List.mem_of_getElem? (i := locals.reqIndex) (by rw [List.getElem?_take, if_pos (by omega), hIndex])
  unscheduled hMem := by
    obtain ⟨i, hLt, hGet⟩ := List.getElem_of_mem (hOk.passed id hMem)
    obtain ⟨hIndexLt, hIndexGet⟩ := List.getElem?_eq_some_iff.mp hIndex
    rw [List.getElem_take] at hGet
    have hSame := (List.Nodup.getElem_inj_iff hOk.queues.running_nodup).mp (hGet.trans hIndexGet.symm)
    have : (locals.st.running.take locals.reqIndex).length ≤ locals.reqIndex := by simp
    omega
  fcfs _ := hIndex

theorem victim_mem {cfg : Config} {locals : Locals H} {id : ReqId}
    (hVictim : locals.victim cfg = some id) : id ∈ locals.st.running := by
  unfold Locals.victim at hVictim
  split at hVictim
  · split at hVictim
    · cases hVictim
    · rename_i first rest hRunning
      rw [hRunning, ← Option.some.inj hVictim]
      clear hVictim hRunning
      induction rest generalizing first with
      | nil => simp
      | cons other rest ih =>
          rw [List.foldl_cons]
          by_cases hBefore : State.Before locals.st.requests other first
          · rw [if_pos hBefore]
            rcases List.mem_cons.mp (ih first) with hEq | hMem
            · exact List.mem_cons.mpr (.inl hEq)
            · exact List.mem_cons_of_mem _ (List.mem_cons_of_mem _ hMem)
          · rw [if_neg hBefore]
            exact List.mem_cons_of_mem _ (ih other)
  · exact List.mem_of_getLast? hVictim

theorem InRound.victim_notMem {cfg : Config} {locals : Locals H} {id worst : ReqId}
    (hRound : InRound cfg id locals) (hVictim : locals.victim cfg = some worst)
    (hFcfs : cfg.priorityPolicy = false) : worst ∉ locals.scheduledRunningReqs := by
  intro hMem
  have hIndex := hRound.fcfs hFcfs
  have hLast : locals.st.running.getLast? = some worst := by
    simpa [Locals.victim, hFcfs] using hVictim
  obtain ⟨before, hRunning⟩ := List.getLast?_eq_some_iff.mp hLast
  obtain ⟨hLt, -⟩ := List.getElem?_eq_some_iff.mp hIndex
  have hPassed := hRound.ok.passed worst hMem
  have hNodup := hRound.ok.queues.running_nodup
  rw [hRunning] at hPassed hNodup hLt
  rw [List.take_append_of_le_length (by simp at hLt; omega)] at hPassed
  exact (List.nodup_append.mp hNodup).2.2 worst (List.mem_of_mem_take hPassed) worst (by simp) rfl

theorem InRound.preempted {cfg : Config} {hashing : Hashing H X} {up : Upstream H}
    {id worst : ReqId} {locals locals' : Locals H} (hRound : InRound cfg id locals)
    (hVictim : locals.victim cfg = some worst) (hNe : worst ≠ id)
    (hPre : Preempted cfg hashing up worst locals locals') : InRound cfg id locals' where
  ok := hRound.ok.preempted (victim_mem hVictim) hPre
  reached := by
    obtain ⟨hSame, hLess⟩ := mem_take_filter hRound.reached hNe.symm
    have hRunning : locals'.st.running = locals.st.running.filter (· ≠ worst) := by
      rw [hPre.st]
      rfl
    rw [hPre.reqIndex, hRunning]
    split
    · rename_i hIn
      have hPassed := hRound.ok.passed worst hIn
      exact List.take_subset_take_left _ (by omega)
        (hLess (List.take_subset_take_left _ (Nat.le_succ _) hPassed))
    · exact hSame
  unscheduled := by
    rw [hPre.scheduledRunningReqs]
    exact fun hMem => hRound.unscheduled (List.mem_of_mem_filter hMem)
  fcfs hFcfs := by
    have hNot := hRound.victim_notMem hVictim hFcfs
    have hIndex := hRound.fcfs hFcfs
    have hLast : locals.st.running.getLast? = some worst := by
      simpa [Locals.victim, hFcfs] using hVictim
    obtain ⟨before, hRunning⟩ := List.getLast?_eq_some_iff.mp hLast
    have hNodup := hRound.ok.queues.running_nodup
    have hFilter : locals'.st.running = before := by
      rw [hPre.st]
      change locals.st.running.filter (· ≠ worst) = before
      rw [hRunning] at hNodup ⊢
      rw [List.filter_append, List.filter_eq_self.mpr]
      · simp
      · intro other hOther
        simpa using fun hEq => (List.nodup_append.mp hNodup).2.2 other hOther worst (by simp) hEq
    rw [hPre.reqIndex, if_neg hNot, hFilter]
    rw [hRunning, List.getElem?_append] at hIndex
    split at hIndex
    · exact hIndex
    · rename_i hGe
      rw [List.getElem?_singleton] at hIndex
      split at hIndex
      · exact absurd (Option.some.inj hIndex) hNe
      · cases hIndex

/-- The locals of a round for `id`, after preempting other requests for it. -/
inductive PreemptedFor (cfg : Config) (hashing : Hashing H X) (up : Upstream H) (id : ReqId)
    (start : Locals H) : Locals H → Prop
  | refl : PreemptedFor cfg hashing up id start start
  | step {locals locals' : Locals H} {worst : ReqId}
      (prior : PreemptedFor cfg hashing up id start locals)
      (hVictim : locals.victim cfg = some worst) (hNe : worst ≠ id)
      (hPreempt : locals.preempt cfg hashing up worst = some locals') :
      PreemptedFor cfg hashing up id start locals'

/-- Either the blocks are found after some preemptions, or `id` itself is the last
victim. -/
theorem allocateOrPreempt_cases {cfg : Config} {hashing : Hashing H X} {up : Upstream H}
    {id : ReqId} {numNewTokens fuel : Nat} {start locals finish : Locals H}
    {blocks : Option Blocks} (prior : PreemptedFor cfg hashing up id start locals)
    (hAlloc : Locals.allocateOrPreempt cfg hashing up id numNewTokens fuel locals =
      some (finish, blocks)) :
    ∃ last, PreemptedFor cfg hashing up id start last ∧
      ((∃ kv newBlocks, blocks = some newBlocks ∧
          last.st.kv.allocateSlots cfg id ((last.st.requests id).numComputedTokens +
            numNewTokens + cfg.numLookaheadTokens) none Blocks.empty up.freeQueue =
              some (kv, newBlocks) ∧
          finish = { last with st := { last.st with kv := kv } }) ∨
        (blocks = none ∧ last.victim cfg = some id ∧
          last.preempt cfg hashing up id = some finish)) := by
  induction fuel generalizing locals with
  | zero => cases hAlloc
  | succ fuel ih =>
      simp only [Locals.allocateOrPreempt] at hAlloc
      split at hAlloc
      · rename_i kv newBlocks hKv
        simp only [Option.some.injEq, Prod.mk.injEq] at hAlloc
        exact ⟨locals, prior, .inl ⟨kv, newBlocks, hAlloc.2.symm, hKv, hAlloc.1.symm⟩⟩
      · simp only [Option.bind_eq_bind, Option.bind_eq_some_iff] at hAlloc
        obtain ⟨worst, hVictim, next, hPreempt, hRest⟩ := hAlloc
        split at hRest
        · rename_i hEq
          simp only [Option.pure_def, Option.some.injEq, Prod.mk.injEq] at hRest
          subst hEq
          exact ⟨locals, prior, .inr ⟨hRest.2.symm, hVictim, hRest.1 ▸ hPreempt⟩⟩
        · rename_i hNe
          exact ih (.step prior hVictim hNe hPreempt) hRest

/-- A running request gets its blocks and its place in the step. -/
def Locals.grantRunning (locals : Locals H) (id : ReqId) (numNewTokens : Nat) (kv : Manager H)
    (newBlocks : Blocks) : Locals H :=
  { locals with st := { locals.st with kv := kv } }.scheduleRunning id numNewTokens newBlocks

theorem Queues.giveRunning {cfg : Config} {s : State H} {skipped : List ReqId}
    (hQueues : Queues cfg s skipped) {id : ReqId} (hMem : id ∈ s.running) {s' : State H}
    (hIds : s'.ids = s.ids) (hInFlight : s'.inFlight = s.inFlight)
    (hWaiting : s'.waiting = s.waiting) (hSkipped : s'.skippedWaiting = s.skippedWaiting)
    (hRunning : s'.running = s.running)
    (hRequests : ∀ other, other ≠ id → s'.requests other = s.requests other)
    (hStatus : (s'.requests id).status = (s.requests id).status)
    (hBlocks : ∀ other, other ≠ id → s'.kv.reqToBlocks other = s.kv.reqToBlocks other)
    (hGroups : ∀ group, cfg.numGroups ≤ group → s'.kv.reqToBlocks id group = []) :
    Queues cfg s' skipped := by
  have hOk := hQueues.request id
  have hKnown := hOk.known
  have hOld := hOk.running.mp hMem
  refine hQueues.inPlace id hIds hInFlight hWaiting hSkipped hRunning hRequests hBlocks
    (fun hWaits => hStatus ▸ hWaits) ?_
  constructor <;> simp_all [RequestStatus.isNew, RequestStatus.isWaiting]

theorem giveBlocks_other {cfg : Config} {kv : Manager H} {id other : ReqId}
    {hits newBlocks : Blocks} (hNe : other ≠ id) :
    (Manager.giveBlocks cfg kv id hits newBlocks).reqToBlocks other = kv.reqToBlocks other := by
  rw [Manager.giveBlocks_reqToBlocks, Function.update_of_ne hNe]

theorem InRound.grantRunning {cfg : Config} {id : ReqId} {locals : Locals H}
    (hRound : InRound cfg id locals) {numNewTokens numTokens : Nat} {wholeTokens : Option Nat}
    {kv : Manager H} {newBlocks : Blocks} {freeQueue : Manager H → List BlockId}
    (hAlloc : locals.st.kv.allocateSlots cfg id numTokens wholeTokens Blocks.empty freeQueue =
      some (kv, newBlocks)) :
    RunningOk cfg (locals.grantRunning id numNewTokens kv newBlocks) := by
  obtain ⟨hKv, hNew⟩ := Manager.allocateSlots_spec hAlloc
  have hScheduled : (locals.grantRunning id numNewTokens kv newBlocks).scheduledReqs =
      locals.scheduledReqs ++ [id] := by
    simp [Locals.scheduledReqs, Locals.grantRunning, Locals.scheduleRunning, hRound.ok.noNew,
      hRound.ok.noResumed]
  constructor
  · refine hRound.ok.queues.giveRunning hRound.running rfl rfl rfl rfl rfl
      (fun other hNe => Function.update_of_ne hNe ..)
      (by simp [Locals.grantRunning, Locals.scheduleRunning, State.modifyRequest])
      (fun other hNe => ?_) (fun group hGroup => ?_)
    · change kv.reqToBlocks other = _
      rw [hKv, giveBlocks_other hNe]
    · change kv.reqToBlocks id group = _
      rw [hKv, Manager.giveBlocks_reqToBlocks, Function.update_self,
        (hRound.ok.queues.request id).groups group hGroup, hNew.groups group hGroup]
      rfl
  · refine ⟨?_, ?_, ?_⟩
    · rw [hScheduled]
      simpa [Locals.grantRunning, Locals.scheduleRunning] using hRound.ok.books.keys.append_right [id]
    · rw [hScheduled, List.nodup_append]
      refine ⟨hRound.ok.books.nodup, by simp, fun other hOther last hLast => ?_⟩
      rw [List.mem_singleton.mp hLast]
      rw [hRound.ok.scheduledReqs_eq] at hOther
      exact ne_of_mem_of_not_mem hOther hRound.unscheduled
    · intro other hOther
      rw [hScheduled] at hOther
      rcases List.mem_append.mp hOther with hOther | hOther
      · exact hRound.ok.books.running other hOther
      · rw [List.mem_singleton.mp hOther]
        exact hRound.running
  · intro other hOther
    rcases List.mem_append.mp hOther with hOther | hOther
    · exact List.take_subset_take_left _ (Nat.le_succ _) (hRound.ok.passed other hOther)
    · rw [List.mem_singleton.mp hOther]
      exact hRound.reached
  · exact hRound.ok.noNew
  · exact hRound.ok.noResumed
  · exact hRound.ok.noSkipped
  · exact hRound.ok.noMatch

/-! ### The rule -/

/-- The running loop passes over a request: it reaches `max_tokens` already, its next
step has no base token yet, or there is nothing to compute. -/
def Request.passedOver (cfg : Config) (tokenBudget : Nat) (request : Request) : Prop :=
  request.reachesMaxTokens = true ∨
    shouldDeferSpecStep cfg.numSpecTokens request.specTokenIds request.runningDemand = true ∨
    request.runningTokens cfg tokenBudget = 0

/-- A round schedules `id`: what it saw at its start, and the allocation that succeeded
after the preemptions. -/
structure Granted (cfg : Config) (hashing : Hashing H X) (up : Upstream H) (id : ReqId)
    (numNewTokens : Nat) (start locals : Locals H) (kv : Manager H) (newBlocks : Blocks) :
    Prop where
  started : RunningOk cfg start
  index : start.st.running[start.reqIndex]? = some id
  budget : start.tokenBudget ≠ 0
  notPassed : ¬ (start.st.requests id).passedOver cfg start.tokenBudget
  tokens : (numNewTokens : Int) = (start.st.requests id).runningTokens cfg start.tokenBudget
  prior : PreemptedFor cfg hashing up id start locals
  round : InRound cfg id locals
  request : locals.st.requests id = start.st.requests id
  alloc : locals.st.kv.allocateSlots cfg id ((locals.st.requests id).numComputedTokens +
    numNewTokens + cfg.numLookaheadTokens) none Blocks.empty up.freeQueue = some (kv, newBlocks)

/-- What a property of the step has to survive in the running loop. -/
structure RunningRule (cfg : Config) (hashing : Hashing H X) (up : Upstream H)
    (Inv : Locals H → Prop) : Prop where
  pass : ∀ {locals id}, RunningOk cfg locals → Inv locals →
    locals.st.running[locals.reqIndex]? = some id → locals.tokenBudget ≠ 0 →
    (locals.st.requests id).passedOver cfg locals.tokenBudget →
    Inv { locals with reqIndex := locals.reqIndex + 1 }
  preempt : ∀ {locals locals' id}, RunningOk cfg locals → Inv locals →
    locals.victim cfg = some id → Preempted cfg hashing up id locals locals' → Inv locals'
  grant : ∀ {id numNewTokens start locals kv newBlocks}, Inv start → Inv locals →
    Granted cfg hashing up id numNewTokens start locals kv newBlocks →
    Inv (locals.grantRunning id numNewTokens kv newBlocks)

theorem Preempted.requests_of_ne {cfg : Config} {hashing : Hashing H X} {up : Upstream H}
    {id other : ReqId} {locals locals' : Locals H} (hPre : Preempted cfg hashing up id locals locals')
    (hNe : other ≠ id) : locals'.st.requests other = locals.st.requests other := by
  rw [hPre.st]
  exact Function.update_of_ne hNe ..

/-- Running requests that the loop has not come to. -/
def Locals.numAhead (locals : Locals H) : Nat := locals.st.running.length - locals.reqIndex

theorem Preempted.numAhead_le {cfg : Config} {hashing : Hashing H X} {up : Upstream H} {id : ReqId}
    {locals locals' : Locals H} (hPre : Preempted cfg hashing up id locals locals')
    (hMem : id ∈ locals.st.running) : locals'.numAhead ≤ locals.numAhead := by
  have hRunning : locals'.st.running = locals.st.running.filter (· ≠ id) := by
    rw [hPre.st]
    rfl
  have hShort : (locals.st.running.filter (· ≠ id)).length < locals.st.running.length :=
    List.length_filter_lt_length_iff_exists.mpr ⟨id, hMem, by simp⟩
  unfold Locals.numAhead
  rw [hRunning, hPre.reqIndex]
  split <;> omega

/-- The preemptions of a round keep it going, and its request is as it was. -/
theorem RunningRule.preemptedFor {cfg : Config} {hashing : Hashing H X} {up : Upstream H}
    {Inv : Locals H → Prop} (rule : RunningRule cfg hashing up Inv) {id : ReqId}
    {start locals : Locals H} (hInv : Inv start) (hRound : InRound cfg id start)
    (prior : PreemptedFor cfg hashing up id start locals) :
    InRound cfg id locals ∧ Inv locals ∧ locals.st.requests id = start.st.requests id ∧
      locals.numAhead ≤ start.numAhead := by
  induction prior with
  | refl => exact ⟨hRound, hInv, rfl, le_rfl⟩
  | step prior hVictim hNe hPreempt ih =>
      obtain ⟨hRound, hInv, hSame, hAhead⟩ := ih
      have hPre := preempt_spec hRound.ok (hRound.victim_notMem hVictim) hPreempt
      exact ⟨hRound.preempted hVictim hNe hPre, rule.preempt hRound.ok hInv hVictim hPre,
        (hPre.requests_of_ne hNe.symm).trans hSame,
        le_trans (hPre.numAhead_le (victim_mem hVictim)) hAhead⟩

theorem RunningOk.pass {cfg : Config} {locals : Locals H} (hOk : RunningOk cfg locals) :
    RunningOk cfg { locals with reqIndex := locals.reqIndex + 1 } where
  queues := hOk.queues
  books := ⟨hOk.books.keys, hOk.books.nodup, hOk.books.running⟩
  passed id hMem := List.take_subset_take_left _ (Nat.le_succ _) (hOk.passed id hMem)
  noNew := hOk.noNew
  noResumed := hOk.noResumed
  noSkipped := hOk.noSkipped
  noMatch := hOk.noMatch

/-- Why the loop stops: no request is left, no token is, or one was preempted or
scheduled. -/
def Locals.RunningDone (locals : Locals H) : Prop :=
  locals.st.running[locals.reqIndex]? = none ∨ locals.tokenBudget = 0 ∨
    locals.preemptedReqs ≠ [] ∨ locals.scheduledRunningReqs ≠ []

theorem runningRound_rule {cfg : Config} {hashing : Hashing H X} {up : Upstream H}
    {budget : DecodeBatchBudget} {Inv : Locals H → Prop} (rule : RunningRule cfg hashing up Inv)
    {locals : Locals H} (hOk : RunningOk cfg locals) (hInv : Inv locals) {next : Next (Locals H)}
    (hRound : locals.runningRound cfg hashing up budget = some next) :
    ∃ locals', (next = .stop locals' ∧ locals'.RunningDone ∨
        next = .more locals' ∧ locals'.numAhead < locals.numAhead) ∧
      RunningOk cfg locals' ∧ Inv locals' := by
  unfold Locals.runningRound at hRound
  split at hRound
  · rename_i hIndex
    exact ⟨locals, .inl ⟨(Option.some.inj hRound).symm, .inl hIndex⟩, hOk, hInv⟩
  rename_i id hIndex
  have hAhead : 0 < locals.numAhead :=
    Nat.sub_pos_of_lt (List.getElem?_eq_some_iff.mp hIndex).1
  split at hRound
  · rename_i hBudget
    exact ⟨locals, .inl ⟨(Option.some.inj hRound).symm, .inr (.inl hBudget)⟩, hOk, hInv⟩
  rename_i hBudget
  dsimp only at hRound
  split at hRound
  · rename_i hPass
    refine ⟨_, .inr ⟨(Option.some.inj hRound).symm, ?_⟩, hOk.pass,
      rule.pass hOk hInv hIndex hBudget hPass⟩
    unfold Locals.numAhead at hAhead ⊢
    dsimp only
    omega
  rename_i hNotPassed
  split at hRound
  · cases hRound
  rename_i hNonneg
  have hTokens : (((locals.st.requests id).runningTokens cfg locals.tokenBudget).toNat : Int) =
      (locals.st.requests id).runningTokens cfg locals.tokenBudget := by omega
  split at hRound
  · cases hRound
  · rename_i last hAlloc
    obtain ⟨last', prior, hCases⟩ := allocateOrPreempt_cases .refl hAlloc
    obtain ⟨hLast, hLastInv, -, -⟩ := rule.preemptedFor hInv (hOk.inRound hIndex) prior
    rcases hCases with ⟨kv, newBlocks, hBlocks, -⟩ | ⟨-, hVictim, hPreempt⟩
    · cases hBlocks
    · have hPre := preempt_spec hLast.ok (hLast.victim_notMem hVictim) hPreempt
      refine ⟨_, .inl ⟨(Option.some.inj hRound).symm, .inr (.inr (.inl ?_))⟩,
        hLast.ok.preempted (victim_mem hVictim) hPre, rule.preempt hLast.ok hLastInv hVictim hPre⟩
      rw [hPre.preemptedReqs]
      simp
  · rename_i last newBlocks hAlloc
    obtain ⟨last', prior, hCases⟩ := allocateOrPreempt_cases .refl hAlloc
    obtain ⟨hLast, hLastInv, hSame, hLess⟩ := rule.preemptedFor hInv (hOk.inRound hIndex) prior
    rcases hCases with ⟨kv, newBlocks', hBlocks, hKv, hFinish⟩ | ⟨hNone, -⟩
    · cases hBlocks
      subst hFinish
      have hGranted := rule.grant hInv hLastInv
        ⟨hOk, hIndex, hBudget, hNotPassed, hTokens, prior, hLast, hSame, hKv⟩
      refine ⟨_, ?_, hLast.grantRunning hKv, hGranted⟩
      split at hRound
      · refine .inr ⟨(Option.some.inj hRound).symm, ?_⟩
        have hNext : (last'.grantRunning id ((locals.st.requests id).runningTokens cfg
            locals.tokenBudget).toNat kv newBlocks).numAhead = last'.numAhead - 1 :=
          Nat.sub_add_eq ..
        omega
      · refine .inl ⟨(Option.some.inj hRound).symm, .inr (.inr (.inr ?_))⟩
        simp [Locals.grantRunning, Locals.scheduleRunning]
    · cases hNone

theorem RunningOk.start {cfg : Config} (up : Upstream H) {s : State H} (hQueues : Queues cfg s []) :
    RunningOk cfg (Locals.start cfg up s) where
  queues := hQueues
  books := ⟨.refl _, List.nodup_nil, by simp [Locals.scheduledReqs, Locals.start]⟩
  passed := by simp [Locals.start]
  noNew := rfl
  noResumed := rfl
  noSkipped := rfl
  noMatch := rfl

/-- What passing over, preempting and scheduling a request preserve, the running loop
preserves. -/
theorem running_rule {cfg : Config} {hashing : Hashing H X} {up : Upstream H}
    {budget : DecodeBatchBudget} {Inv : Locals H → Prop} (rule : RunningRule cfg hashing up Inv)
    {s : State H} (hQueues : Queues cfg s []) (hStart : Inv (Locals.start cfg up s)) {fuel : Nat}
    {locals : Locals H}
    (hLoop : loop (Locals.runningRound cfg hashing up budget) fuel (Locals.start cfg up s) =
      some locals) : RunningOk cfg locals ∧ Inv locals := by
  refine loop_rule (fun locals => RunningOk cfg locals ∧ Inv locals)
    (fun locals => RunningOk cfg locals ∧ Inv locals) (fun _ h => h) ?_ ?_
    ⟨RunningOk.start up hQueues, hStart⟩ hLoop
  · rintro locals last ⟨hOk, hInv⟩ hRound
    obtain ⟨locals', ⟨hEq, -⟩ | ⟨hEq, -⟩, h⟩ := runningRound_rule rule hOk hInv hRound <;> cases hEq
    exact h
  · rintro locals last ⟨hOk, hInv⟩ hRound
    obtain ⟨locals', ⟨hEq, -⟩ | ⟨hEq, -⟩, h⟩ := runningRound_rule rule hOk hInv hRound <;> cases hEq
    exact h

/-- A round for each running request is enough for the loop to stop by itself. -/
theorem running_done {cfg : Config} {hashing : Hashing H X} {up : Upstream H}
    {budget : DecodeBatchBudget} {s : State H} (hQueues : Queues cfg s []) {locals : Locals H}
    (hLoop : loop (Locals.runningRound cfg hashing up budget) (s.running.length + 1)
      (Locals.start cfg up s) = some locals) : locals.RunningDone := by
  have rule : RunningRule cfg hashing up fun _ => True := by constructor <;> simp
  refine loop_rule_of_measure (RunningOk cfg) Locals.RunningDone Locals.numAhead ?_ ?_
    (RunningOk.start up hQueues) ?_ hLoop
  · intro locals last hOk hRound
    obtain ⟨locals', ⟨hEq, hDone⟩ | ⟨hEq, -⟩, -⟩ := runningRound_rule rule hOk trivial hRound <;>
      cases hEq
    exact hDone
  · intro locals last hOk hRound
    obtain ⟨locals', ⟨hEq, -⟩ | ⟨hEq, hLess⟩, hOk', -⟩ :=
      runningRound_rule rule hOk trivial hRound <;> cases hEq
    exact ⟨hOk', hLess⟩
  · exact Nat.lt_succ_of_le (Nat.sub_le ..)

end VllmRbln.Scheduler
