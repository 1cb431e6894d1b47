import VllmRbln.Common.Dict
import VllmRbln.Common.Vacant
import VllmRbln.Optimum.Pool

/-! The scheduler of the optimum path (`v1/core/optimum_scheduler.py`): a step prefills one request
or decodes the running ones in turn, preempting where blocks run out, and each running request
holds a cache slot, its row in the per-sequence caches of the device. -/
namespace VllmRbln.Optimum

set_option linter.unusedSectionVars false

variable {H T : Type} [DecidableEq H]

/-- `core` holds the pool and, by id, what is kept of the running requests. -/
structure EngineState (H T : Type) where
  core : Scheduler H T
  running : List Nat
  cacheSlotIds : List (Nat × Nat)

namespace EngineState

def initial (cfg : EngineConfig) : EngineState H T where
  core := ⟨cfg.initialKv, fun _ => none⟩
  running := []
  cacheSlotIds := []

/-- Takes a request out of `running`, frees its blocks and gives up its slot: `_preempt_request`,
and `_free_request` when it finished. -/
def withdraw (cfg : EngineConfig) (preemption : Bool) (requestId : Nat) (s : EngineState H T) :
    Option (EngineState H T) :=
  (cfg.free s.core.kv requestId preemption).map fun kv =>
    { core := ⟨kv, Function.update s.core.running requestId none⟩
      running := s.running.erase requestId
      cacheSlotIds := s.cacheSlotIds.filter fun row => row.1 ≠ requestId }

/-- One round of the loop over the waiting requests. The flag is whether it admitted its request,
`none` an error. -/
def admission (cfg : EngineConfig) (hash : BlockHashing H T) (pick : EngineConfig.Pick)
    (requestId : Nat) (tokens : List T) (s : EngineState H T) : Option (Bool × EngineState H T) :=
  if s.running.length = cfg.maxNumSeqs then some (false, s)
  else do
    let numNewTokens := min tokens.length cfg.maxNumScheduledTokens
    let (done, kv) ← cfg.allocateSlots (blockHashes hash cfg.blocks tokens) pick s.core.kv requestId
      tokens.length 0 numNewTokens
    if done then
      -- `min` of the slots that are free
      (Vacant.lowest id cfg.maxNumSeqs (s.cacheSlotIds.map Prod.snd)).map fun slot =>
        (true,
          { core := ⟨kv, Function.update s.core.running requestId (some ⟨tokens, numNewTokens⟩)⟩
            running := s.running ++ [requestId]
            cacheSlotIds := s.cacheSlotIds ++ [(requestId, slot)] })
    else some (false, { s with core := { s.core with kv } })

end EngineState

/-! ### The decode loop -/

/-- The order of `(priority, arrival_time)`. -/
def KeyLt (a b : Int × Nat) : Prop := a.1 < b.1 ∨ a.1 = b.1 ∧ a.2 < b.2

instance (a b : Int × Nat) : Decidable (KeyLt a b) := inferInstanceAs (Decidable (_ ∨ _))

/-- `max(running, key=key)`: the first request that none is above. -/
def maxBy (key : Nat → Int × Nat) : List Nat → Option Nat
  | [] => none
  | first :: rest =>
      some (rest.foldl (fun best id => if KeyLt (key best) (key id) then id else best) first)

/-- The request that is preempted when blocks run out. -/
def EngineConfig.victim (cfg : EngineConfig) (running : List Nat) : Option Nat :=
  match cfg.policy with
  | .fcfs => running.getLast?
  | .priority => maxBy cfg.key running

/-- The variables of the loop over the running requests. -/
structure Pass (H T : Type) where
  state : EngineState H T
  numScheduledTokens : List (Nat × Nat)
  reqIndex : Nat
  tokenBudget : Nat

namespace Pass

def start (cfg : EngineConfig) (state : EngineState H T) : Pass H T where
  state := state
  numScheduledTokens := []
  reqIndex := 0
  tokenBudget := cfg.maxNumScheduledTokens

/-- A victim that was scheduled in this step already is taken off again. -/
def preempt (cfg : EngineConfig) (victim : Nat) (pass : Pass H T) : Option (Pass H T) :=
  (pass.state.withdraw cfg true victim).map fun state =>
    match cfg.policy, pass.numScheduledTokens.lookup victim with
    | .priority, some numTokens =>
        { state
          numScheduledTokens := pass.numScheduledTokens.filter fun row => row.1 ≠ victim
          reqIndex := pass.reqIndex - 1
          tokenBudget := pass.tokenBudget + numTokens }
    | _, _ => { pass with state }

/-- The request is scheduled; its computed tokens are counted right away. -/
def place (requestId : Nat) (request : Request T) (numNewTokens : Nat) (kv : KvCacheManager H)
    (pass : Pass H T) : Pass H T where
  state := { pass.state with
    core := ⟨kv, Function.update pass.state.core.running requestId
      (some { request with numComputedTokens := request.numComputedTokens + numNewTokens })⟩ }
  numScheduledTokens := pass.numScheduledTokens ++ [(requestId, numNewTokens)]
  reqIndex := pass.reqIndex + 1
  tokenBudget := pass.tokenBudget - numNewTokens

/-- The `while True` loop: allocates, preempting until there is room. The flag is whether the
request got its slot or was itself preempted; `none` is an error or out of fuel. -/
def makeRoom (cfg : EngineConfig) (hash : BlockHashing H T) (pick : EngineConfig.Pick)
    (requestId : Nat) (request : Request T) (numNewTokens : Nat) :
    Nat → Pass H T → Option (Bool × Pass H T)
  | 0, _ => none
  | fuel + 1, pass => do
      let (done, kv) ← cfg.allocateSlots (blockHashes hash cfg.blocks request.tokens) pick
        pass.state.core.kv requestId request.tokens.length request.numComputedTokens numNewTokens
      if done then some (true, pass.place requestId request numNewTokens kv)
      else
        let victim ← cfg.victim pass.state.running
        let pass ← pass.preempt cfg victim
        if victim = requestId then some (false, pass)
        else makeRoom cfg hash pick requestId request numNewTokens fuel pass

/-- `num_new_tokens` of a decode. -/
def numNewTokens (cfg : EngineConfig) (pass : Pass H T) (request : Request T) : Nat :=
  min (min 1 pass.tokenBudget) (cfg.maxModelLen - 1 - request.numComputedTokens)

/-- The loop over the running requests. -/
def decodeLoop (cfg : EngineConfig) (hash : BlockHashing H T) (pick : EngineConfig.Pick) :
    Nat → Pass H T → Option (Pass H T)
  | 0, _ => none
  | fuel + 1, pass =>
      match pass.state.running[pass.reqIndex]? with
      | none => some pass
      | some requestId =>
          if pass.tokenBudget = 0 then some pass
          else do
            let request ← pass.state.core.running requestId
            let numNewTokens := pass.numNewTokens cfg request
            if numNewTokens = 0 then
              decodeLoop cfg hash pick fuel { pass with reqIndex := pass.reqIndex + 1 }
            else
              let (placed, pass) ← makeRoom cfg hash pick requestId request numNewTokens
                pass.state.running.length pass
              if placed then decodeLoop cfg hash pick fuel pass else some pass

/-- The loop gets to the end of the running requests: the budget lasts, and a request that is
preempted for itself has none behind it. -/
def RunsThrough (cfg : EngineConfig) (hash : BlockHashing H T) (pick : EngineConfig.Pick) :
    Nat → Pass H T → Prop
  | 0, _ => True
  | fuel + 1, pass => ∀ requestId request, pass.state.running[pass.reqIndex]? = some requestId →
      pass.state.core.running requestId = some request →
      pass.tokenBudget ≠ 0 ∧ ∀ placed after,
        makeRoom cfg hash pick requestId request (pass.numNewTokens cfg request)
          pass.state.running.length pass = some (placed, after) →
        if placed then RunsThrough cfg hash pick fuel after
        else after.state.running.length ≤ after.reqIndex

end Pass

/-! ### A step -/

/-- What the runner is told of a step. -/
structure SchedulerOutput where
  isPrefill : Bool
  numScheduledTokens : List (Nat × Nat)
  dummyBlock : Option Nat
  cacheSlotIdDict : List (Nat × Nat)
  deriving DecidableEq, Repr

/-- The requests of the step. -/
def SchedulerOutput.reqIds (output : SchedulerOutput) : List Nat :=
  output.numScheduledTokens.map Prod.fst

namespace EngineState

/-- The dummy block of a step with `numDecodeReqs` decodes; `none` is an error. -/
def dummyBlock (cfg : EngineConfig) (numDecodeReqs : Nat) (s : EngineState H T) :
    Option (Option Nat × EngineState H T) :=
  if cfg.isEncoderDecoder then
    -- the last block of the pool, in the numbering of the compiled model
    some (some (cfg.getAvailableNumBlocks - 1 - 1), s)
  else if cfg.enablePrefixCaching ∧ 0 < numDecodeReqs ∧ numDecodeReqs < cfg.maxNumSeqs then
    (s.core.kv.prefixCacheManager.getDummyBlock cfg.blocks).map fun dummy =>
      (some dummy.1,
        { s with core := { s.core with kv := { s.core.kv with prefixCacheManager := dummy.2 } } })
  else some (none, s)

/-- The output of a step. -/
def emit (cfg : EngineConfig) (isPrefill : Bool) (numScheduledTokens : List (Nat × Nat))
    (s : EngineState H T) : Option (SchedulerOutput × EngineState H T) := do
  let numDecodeReqs := if isPrefill then 0 else numScheduledTokens.length
  let (dummyBlock, s) ← s.dummyBlock cfg numDecodeReqs
  let cacheSlotIdDict ← numScheduledTokens.mapM fun row =>
    (s.cacheSlotIds.lookup row.1).map fun slot => (row.1, slot)
  return ({ isPrefill, numScheduledTokens, dummyBlock, cacheSlotIdDict }, s)

/-- The first half of a step. `candidate` is the waiting request the step gets to, if any. -/
def tryAdmit (cfg : EngineConfig) (hash : BlockHashing H T) (pick : EngineConfig.Pick)
    (candidate : Option (Nat × List T)) (s : EngineState H T) : Option (Bool × EngineState H T) :=
  match candidate with
  | none => some (false, s)
  | some (requestId, tokens) => s.admission cfg hash pick requestId tokens

/-- `schedule`. -/
def schedule (cfg : EngineConfig) (hash : BlockHashing H T) (pick : EngineConfig.Pick)
    (candidate : Option (Nat × List T)) (s : EngineState H T) :
    Option (SchedulerOutput × EngineState H T) := do
  let (admitted, s) ← s.tryAdmit cfg hash pick candidate
  if admitted then
    let (requestId, tokens) ← candidate
    s.emit cfg true [(requestId, min tokens.length cfg.maxNumScheduledTokens)]
  else
    let pass ← (Pass.start cfg s).decodeLoop cfg hash pick (s.running.length + 1)
    pass.state.emit cfg false pass.numScheduledTokens

end EngineState

/-! ### What holds between steps -/

/-- The invariant of a run: the pool is in order, `running` lists the running requests, and each of
them holds a cache slot of its own. -/
structure EngineState.Sound (cfg : EngineConfig) (s : EngineState H T) : Prop where
  kept : cfg.Kept s.core
  nodup : s.running.Nodup
  records : ∀ requestId, requestId ∈ s.running ↔ ∃ request, s.core.running requestId = some request
  bounded : s.running.length ≤ cfg.maxNumSeqs
  computed : ∀ requestId request, s.core.running requestId = some request →
    request.numComputedTokens ≤ cfg.maxModelLen
  holders : (Dict.keys s.cacheSlotIds).Perm s.running
  distinct : (s.cacheSlotIds.map Prod.snd).Nodup
  inside : ∀ slot ∈ s.cacheSlotIds.map Prod.snd, slot < cfg.maxNumSeqs

/-- A running request was left with one token to compute, short of the model's length. -/
def Request.Ready (cfg : EngineConfig) (request : Request T) : Prop :=
  request.tokens.length = request.numComputedTokens + 1 ∧ request.tokens.length < cfg.maxModelLen

section Sound

variable {cfg : EngineConfig} {s : EngineState H T}

theorem EngineState.initial_sound : (EngineState.initial cfg : EngineState H T).Sound cfg where
  kept := EngineConfig.initial_kept
  nodup := List.nodup_nil
  records := by
    intro requestId
    constructor
    · exact nofun
    · rintro ⟨request, hRunning⟩
      cases hRunning
  bounded := Nat.zero_le _
  computed := nofun
  holders := List.Perm.nil
  distinct := List.nodup_nil
  inside := nofun

theorem update_none_eq_some {running : Nat → Option (Request T)} {requestId other : Nat}
    {request : Request T} :
    Function.update running requestId none other = some request ↔
      other ≠ requestId ∧ running other = some request := by
  by_cases hOther : other = requestId
  · subst hOther
    simp
  · simp [hOther]

theorem update_some_eq_some {running : Nat → Option (Request T)} {requestId other : Nat}
    {request new : Request T} :
    Function.update running requestId (some new) other = some request ↔
      (other = requestId ∧ new = request) ∨ (other ≠ requestId ∧ running other = some request) := by
  by_cases hOther : other = requestId
  · subst hOther
    simp
  · simp [hOther]

theorem keys_filter_ne {rows : List (Nat × Nat)} (requestId : Nat)
    (hNodup : (Dict.keys rows).Nodup) :
    Dict.keys (rows.filter fun row => row.1 ≠ requestId) = (Dict.keys rows).erase requestId := by
  rw [hNodup.erase_eq_filter, Dict.keys, List.filter_map]
  congr 1
  apply List.filter_congr
  intro row _
  by_cases hRow : row.1 = requestId
  · simp [hRow]
  · simp [hRow]

/-- Taking a request out, for whatever reason. -/
theorem EngineState.Sound.withdraw (hSound : s.Sound cfg) (preemption : Bool) (requestId : Nat) :
    ∃ after, s.withdraw cfg preemption requestId = some after ∧ after.Sound cfg ∧
      after.running = s.running.erase requestId ∧
      ∀ other request, after.core.running other = some request ↔
        other ≠ requestId ∧ s.core.running other = some request := by
  obtain ⟨kv, hFree, hKept⟩ := hSound.kept.free requestId preemption
  refine ⟨{ core := ⟨kv, Function.update s.core.running requestId none⟩
            running := s.running.erase requestId
            cacheSlotIds := s.cacheSlotIds.filter fun row => row.1 ≠ requestId },
    ?_, ?_, rfl, fun other request => update_none_eq_some⟩
  · rw [EngineState.withdraw, hFree, Option.map_some]
  · have hSublist : ((s.cacheSlotIds.filter fun row => row.1 ≠ requestId).map Prod.snd).Sublist
        (s.cacheSlotIds.map Prod.snd) := List.filter_sublist.map _
    exact {
      kept := hKept
      nodup := hSound.nodup.erase requestId
      records := by
        intro other
        rw [hSound.nodup.mem_erase_iff, hSound.records]
        constructor
        · rintro ⟨hNe, request, hRunning⟩
          exact ⟨request, update_none_eq_some.2 ⟨hNe, hRunning⟩⟩
        · rintro ⟨request, hRunning⟩
          obtain ⟨hNe, hOld⟩ := update_none_eq_some.1 hRunning
          exact ⟨hNe, request, hOld⟩
      bounded := Nat.le_trans List.length_erase_le hSound.bounded
      computed := fun other request hRunning =>
        hSound.computed other request (update_none_eq_some.1 hRunning).2
      holders := by
        rw [keys_filter_ne requestId (hSound.holders.nodup_iff.2 hSound.nodup)]
        exact hSound.holders.erase requestId
      distinct := hSublist.nodup hSound.distinct
      inside := fun slot hMem => hSound.inside slot (hSublist.subset hMem) }

theorem EngineState.Sound.sample (hSound : s.Sound cfg) (requestId : Nat) (token : T) :
    EngineState.Sound cfg { s with core := { s.core with
      running := Function.update s.core.running requestId
        ((s.core.running requestId).map fun request =>
          { request with tokens := request.tokens ++ [token] }) } } where
  kept := hSound.kept.sample requestId token
  nodup := hSound.nodup
  records := by
    intro other
    rw [hSound.records]
    by_cases hOther : other = requestId
    · subst hOther
      simp
    · simp [hOther]
  bounded := hSound.bounded
  computed := by
    intro other request hRunning
    replace hRunning : Function.update s.core.running requestId _ other = some request := hRunning
    by_cases hOther : other = requestId
    · subst hOther
      rw [Function.update_self, Option.map_eq_some_iff] at hRunning
      obtain ⟨before, hBefore, rfl⟩ := hRunning
      exact hSound.computed other before hBefore
    · rw [Function.update_of_ne hOther] at hRunning
      exact hSound.computed other request hRunning
  holders := hSound.holders
  distinct := hSound.distinct
  inside := hSound.inside

/-- The slots that are taken are fewer than there are. -/
theorem EngineState.Sound.slot (hSound : s.Sound cfg) (hRoom : s.running.length ≠ cfg.maxNumSeqs) :
    ∃ slot, Vacant.lowest id cfg.maxNumSeqs (s.cacheSlotIds.map Prod.snd) = some slot := by
  apply Vacant.lowest_of_length_lt Function.injective_id
  have hBound := hSound.bounded
  have hLength := hSound.holders.length_eq
  rw [Dict.keys, List.length_map] at hLength
  rw [List.length_map]
  omega

theorem EngineState.Sound.admission (hSound : s.Sound cfg) (hash : BlockHashing H T)
    {pick : EngineConfig.Pick} (hPick : EngineConfig.Picks pick) {requestId : Nat}
    {tokens : List T} (hIdle : s.core.running requestId = none) (hSome : 0 < tokens.length)
    (hFits : tokens.length ≤ cfg.maxModelLen) (hBudget : tokens.length ≤ cfg.maxNumScheduledTokens) :
    s.admission cfg hash pick requestId tokens = some (false, s) ∨
      ∃ after, s.admission cfg hash pick requestId tokens = some (true, after) ∧ after.Sound cfg ∧
        requestId ∈ after.running := by
  unfold EngineState.admission
  split
  · exact Or.inl rfl
  · rename_i hRoom
    have hNew : min tokens.length cfg.maxNumScheduledTokens = tokens.length := Nat.min_eq_left hBudget
    have hAsks : EngineConfig.Asks s.core requestId tokens.length 0 := Or.inl ⟨hIdle, rfl, hSome⟩
    rcases hSound.kept.allocateSlots hPick hAsks hFits (blockHashes hash cfg.blocks tokens)
      tokens.length with hNo | ⟨kv, hYes, hKept⟩
    · left
      simp only [hNew, hNo, Option.bind_eq_bind, Option.bind_some, Bool.false_eq_true, if_false]
    · right
      obtain ⟨slot, hSlot⟩ := hSound.slot hRoom
      have hAbsent : requestId ∉ s.running := by
        intro hMem
        obtain ⟨request, hRunning⟩ := (hSound.records requestId).1 hMem
        rw [hIdle] at hRunning
        cases hRunning
      refine ⟨{ core := ⟨kv, Function.update s.core.running requestId
                  (some ⟨tokens, tokens.length⟩)⟩
                running := s.running ++ [requestId]
                cacheSlotIds := s.cacheSlotIds ++ [(requestId, slot)] }, ?_, ?_, ?_⟩
      · simp only [hNew, hYes, hSlot, Option.bind_eq_bind, Option.bind_some, if_true,
          Option.map_some]
      · exact {
          kept := hKept ⟨tokens, tokens.length⟩ rfl rfl
          nodup := List.nodup_append.2 ⟨hSound.nodup, List.nodup_singleton _, by
            rintro other hMem _ hLast rfl
            rw [List.mem_singleton.1 hLast] at hMem
            exact hAbsent hMem⟩
          records := by
            intro other
            rw [List.mem_append, List.mem_singleton, hSound.records]
            by_cases hOther : other = requestId
            · subst hOther
              simp
            · simp [hOther]
          bounded := by
            have hBound := hSound.bounded
            rw [List.length_append, List.length_singleton]
            omega
          computed := by
            intro other request hRunning
            rcases update_some_eq_some.1 hRunning with ⟨-, rfl⟩ | ⟨-, hOld⟩
            · exact hFits
            · exact hSound.computed other request hOld
          holders := by
            rw [Dict.keys, List.map_append]
            exact hSound.holders.append_right [requestId]
          distinct := by
            rw [List.map_append]
            apply List.nodup_append.2 ⟨hSound.distinct, List.nodup_singleton _, _⟩
            rintro other hMem _ hLast rfl
            have hSlotEq : other = slot := List.mem_singleton.1 hLast
            rw [hSlotEq] at hMem
            exact Vacant.lowest_not_mem hSlot hMem
          inside := by
            intro other hMem
            rw [List.map_append, List.mem_append] at hMem
            rcases hMem with hMem | hMem
            · exact hSound.inside other hMem
            · have hSlotEq : other = slot := List.mem_singleton.1 hMem
              rw [hSlotEq]
              exact Vacant.lowest_lt hSlot }
      · exact List.mem_append_right _ (List.mem_singleton_self _)

end Sound

/-! ### What holds within the decode loop -/

theorem mem_of_maxBy {key : Nat → Int × Nat} {running : List Nat} {victim : Nat}
    (hVictim : maxBy key running = some victim) : victim ∈ running := by
  cases running with
  | nil => cases hVictim
  | cons first rest =>
      rw [maxBy, Option.some.injEq] at hVictim
      subst hVictim
      induction rest generalizing first with
      | nil => exact List.mem_singleton_self first
      | cons next rest ih =>
          rw [List.foldl_cons]
          split
          · exact List.mem_cons_of_mem _ (ih next)
          · rcases List.mem_cons.1 (ih first) with hFirst | hRest
            · rw [hFirst]
              exact List.mem_cons_self
            · exact List.mem_cons_of_mem _ (List.mem_cons_of_mem _ hRest)

/-- There is somebody to preempt as long as there is a running request. -/
theorem EngineConfig.victim_isSome (cfg : EngineConfig) {running : List Nat}
    (hSome : running ≠ []) : ∃ victim, cfg.victim running = some victim := by
  unfold EngineConfig.victim
  cases cfg.policy with
  | fcfs => exact ⟨_, List.getLast?_eq_some_getLast hSome⟩
  | priority =>
      cases running with
      | nil => exact absurd rfl hSome
      | cons first rest => exact ⟨_, rfl⟩

theorem EngineConfig.victim_mem {cfg : EngineConfig} {running : List Nat} {victim : Nat}
    (hVictim : cfg.victim running = some victim) : victim ∈ running := by
  unfold EngineConfig.victim at hVictim
  cases hPolicy : cfg.policy with
  | fcfs =>
      rw [hPolicy] at hVictim
      exact List.mem_of_getLast? hVictim
  | priority =>
      rw [hPolicy] at hVictim
      exact mem_of_maxBy hVictim

/-- First come, first served takes the last request. -/
theorem EngineConfig.victim_fcfs {cfg : EngineConfig} (hPolicy : cfg.policy = .fcfs)
    {front rest : List Nat} {requestId victim : Nat}
    (hVictim : cfg.victim (front ++ requestId :: rest) = some victim) :
    victim ∈ requestId :: rest := by
  rw [EngineConfig.victim, hPolicy] at hVictim
  replace hVictim : (front ++ requestId :: rest).getLast? = some victim := hVictim
  rw [List.getLast?_append, Option.or_of_isSome (by simp)] at hVictim
  exact List.mem_of_getLast? hVictim

theorem EngineConfig.victim_fcfs_self {cfg : EngineConfig} (hPolicy : cfg.policy = .fcfs)
    {front rest : List Nat} {requestId : Nat} (hNot : requestId ∉ rest)
    (hVictim : cfg.victim (front ++ requestId :: rest) = some requestId) : rest = [] := by
  cases rest with
  | nil => rfl
  | cons next rest =>
      rw [List.append_cons] at hVictim
      exact absurd (EngineConfig.victim_fcfs hPolicy hVictim) hNot

namespace Pass

/-- In the middle of the loop: the scheduled requests stand in front of those still to come, and
who runs has the tokens it had `before`. -/
structure Ok (cfg : EngineConfig) (before : EngineState H T) (pass : Pass H T)
    (rest : List Nat) : Prop where
  sound : pass.state.Sound cfg
  split : pass.state.running = Dict.keys pass.numScheduledTokens ++ rest
  index : pass.reqIndex = pass.numScheduledTokens.length
  ready : ∀ requestId ∈ rest, ∀ request, pass.state.core.running requestId = some request →
    request.Ready cfg
  same : ∀ requestId request, pass.state.core.running requestId = some request →
    ∃ old, before.core.running requestId = some old ∧ old.tokens = request.tokens

section Loop

variable {cfg : EngineConfig} {before : EngineState H T} {pass : Pass H T} {rest : List Nat}
  {requestId : Nat}

theorem Ok.apart (hOk : pass.Ok cfg before rest) :
    (Dict.keys pass.numScheduledTokens).Nodup ∧ rest.Nodup ∧
      ∀ other ∈ rest, other ∉ Dict.keys pass.numScheduledTokens := by
  have hNodup := hOk.sound.nodup
  rw [hOk.split, List.nodup_append] at hNodup
  obtain ⟨hKeys, hRest, hApart⟩ := hNodup
  exact ⟨hKeys, hRest, fun other hMem hKey => hApart other hKey other hMem rfl⟩

/-- A preempted request was scheduled before, or is one of those still to come. First come, first
served reaches the request at hand last. -/
theorem Ok.preempt (hOk : pass.Ok cfg before (requestId :: rest)) {victim : Nat}
    (hVictim : cfg.victim pass.state.running = some victim) :
    ∃ after rest', pass.preempt cfg victim = some after ∧
      after.Ok cfg before (if victim = requestId then rest else requestId :: rest') ∧
      rest'.length ≤ rest.length ∧
      after.state.running = pass.state.running.erase victim ∧
      (∀ other request, after.state.core.running other = some request ↔
        other ≠ victim ∧ pass.state.core.running other = some request) ∧
      (cfg.policy = .fcfs → after.tokenBudget = pass.tokenBudget ∧
        (victim = requestId → rest = [])) := by
  obtain ⟨state, hWithdraw, hSound, hErase, hElse⟩ := hOk.sound.withdraw true victim
  obtain ⟨hKeys, hRest, hApart⟩ := hOk.apart
  have hReady : ∀ other ∈ requestId :: rest, ∀ request, state.core.running other = some request →
      request.Ready cfg := fun other hMem request hRunning =>
    hOk.ready other hMem request ((hElse other request).1 hRunning).2
  have hSame : ∀ other request, state.core.running other = some request →
      ∃ old, before.core.running other = some old ∧ old.tokens = request.tokens :=
    fun other request hRunning => hOk.same other request ((hElse other request).1 hRunning).2
  have hMem := EngineConfig.victim_mem hVictim
  rw [hOk.split, List.mem_append] at hMem
  by_cases hKey : victim ∈ Dict.keys pass.numScheduledTokens
  · -- only the priority policy reaches back
    have hPolicy : cfg.policy = .priority := by
      cases hCase : cfg.policy with
      | priority => rfl
      | fcfs =>
          rw [hOk.split] at hVictim
          exact absurd hKey (hApart victim (EngineConfig.victim_fcfs hCase hVictim))
    obtain ⟨numTokens, hLookup⟩ := Option.isSome_iff_exists.1 (Dict.lookup_isSome.2 hKey)
    have hNe : victim ≠ requestId := by
      rintro rfl
      exact hApart victim List.mem_cons_self hKey
    refine ⟨{ state
              numScheduledTokens := pass.numScheduledTokens.filter fun row => row.1 ≠ victim
              reqIndex := pass.reqIndex - 1
              tokenBudget := pass.tokenBudget + numTokens }, rest, ?_, ?_, Nat.le_refl _, hErase,
      hElse, ?_⟩
    · rw [Pass.preempt, hWithdraw, Option.map_some, hPolicy, hLookup]
    · rw [if_neg hNe]
      have hFilter := keys_filter_ne victim hKeys
      exact {
        sound := hSound
        split := by
          rw [hErase, hOk.split, List.erase_append_left _ hKey, hFilter]
        index := by
          have hLength : (pass.numScheduledTokens.filter fun row => row.1 ≠ victim).length =
              pass.numScheduledTokens.length - 1 := by
            have hErased := (congrArg List.length hFilter).trans (List.length_erase_of_mem hKey)
            rw [Dict.keys, Dict.keys, List.length_map, List.length_map] at hErased
            exact hErased
          show pass.reqIndex - 1 = _
          rw [hLength, hOk.index]
        ready := hReady
        same := hSame }
    · intro hFirst
      rw [hPolicy] at hFirst
      cases hFirst
  · have hCome : victim ∈ requestId :: rest := hMem.resolve_left hKey
    have hLookup : pass.numScheduledTokens.lookup victim = none := Dict.lookup_eq_none.2 hKey
    have hRunning : state.running =
        Dict.keys pass.numScheduledTokens ++ (requestId :: rest).erase victim := by
      rw [hErase, hOk.split, List.erase_append_right _ hKey]
    refine ⟨{ pass with state }, rest.erase victim, ?_, ?_, List.length_erase_le, hErase, hElse,
      fun hFirst => ⟨rfl, ?_⟩⟩
    · rw [Pass.preempt, hWithdraw, Option.map_some, hLookup]
      cases cfg.policy with
      | fcfs => rfl
      | priority => rfl
    · split
      · rename_i hSelf
        subst hSelf
        rw [List.erase_cons_head] at hRunning
        exact ⟨hSound, hRunning, hOk.index,
          fun other hIn => hReady other (List.mem_cons_of_mem _ hIn), hSame⟩
      · rename_i hNe
        rw [List.erase_cons_tail (by simpa using Ne.symm hNe)] at hRunning
        refine ⟨hSound, hRunning, hOk.index, ?_, hSame⟩
        intro other hIn
        apply hReady other
        rcases List.mem_cons.1 hIn with rfl | hIn
        · exact List.mem_cons_self
        · exact List.mem_cons_of_mem _ (List.mem_of_mem_erase hIn)
    · rintro rfl
      rw [hOk.split] at hVictim
      exact EngineConfig.victim_fcfs_self hFirst (List.nodup_cons.1 hRest).1 hVictim

theorem Ok.place (hOk : pass.Ok cfg before (requestId :: rest)) {request : Request T}
    (hRunning : pass.state.core.running requestId = some request) {kv : KvCacheManager H}
    (hKept : cfg.Kept ⟨kv, Function.update pass.state.core.running requestId
      (some { request with numComputedTokens := request.numComputedTokens + 1 })⟩) :
    (pass.place requestId request 1 kv).Ok cfg before rest := by
  obtain ⟨-, hRest, -⟩ := hOk.apart
  have hNot : requestId ∉ rest := (List.nodup_cons.1 hRest).1
  have hReady := hOk.ready requestId List.mem_cons_self request hRunning
  exact {
    sound := {
      kept := hKept
      nodup := hOk.sound.nodup
      records := by
        intro other
        rw [show (pass.place requestId request 1 kv).state.running = pass.state.running from rfl,
          hOk.sound.records]
        constructor
        · rintro ⟨old, hOld⟩
          by_cases hOther : other = requestId
          · exact ⟨_, update_some_eq_some.2 (Or.inl ⟨hOther, rfl⟩)⟩
          · exact ⟨old, update_some_eq_some.2 (Or.inr ⟨hOther, hOld⟩)⟩
        · rintro ⟨new, hNew⟩
          rcases update_some_eq_some.1 hNew with ⟨rfl, -⟩ | ⟨-, hOld⟩
          · exact ⟨request, hRunning⟩
          · exact ⟨new, hOld⟩
      bounded := hOk.sound.bounded
      computed := by
        intro other new hNew
        rcases update_some_eq_some.1 hNew with ⟨-, rfl⟩ | ⟨-, hOld⟩
        · show request.numComputedTokens + 1 ≤ cfg.maxModelLen
          rw [← hReady.1]
          exact Nat.le_of_lt hReady.2
        · exact hOk.sound.computed other new hOld
      holders := hOk.sound.holders
      distinct := hOk.sound.distinct
      inside := hOk.sound.inside }
    split := by
      show pass.state.running = Dict.keys (pass.numScheduledTokens ++ [(requestId, 1)]) ++ rest
      rw [hOk.split, Dict.keys, Dict.keys, List.map_append, List.append_assoc]
      rfl
    index := by
      show pass.reqIndex + 1 = (pass.numScheduledTokens ++ [(requestId, 1)]).length
      rw [hOk.index, List.length_append, List.length_singleton]
    ready := by
      intro other hIn new hNew
      rcases update_some_eq_some.1 hNew with ⟨rfl, -⟩ | ⟨-, hOld⟩
      · exact absurd hIn hNot
      · exact hOk.ready other (List.mem_cons_of_mem _ hIn) new hOld
    same := by
      intro other new hNew
      rcases update_some_eq_some.1 hNew with ⟨rfl, rfl⟩ | ⟨-, hOld⟩
      · exact hOk.same other request hRunning
      · exact hOk.same other new hOld }

variable (hash : BlockHashing H T) {pick : EngineConfig.Pick}

/-- The request at hand is scheduled or preempted, at the latest when it runs alone. -/
theorem Ok.makeRoom (hOk : pass.Ok cfg before (requestId :: rest)) {request : Request T}
    (hRunning : pass.state.core.running requestId = some request)
    (hPick : EngineConfig.Picks pick) {fuel : Nat} (hFuel : pass.state.running.length ≤ fuel) :
    ∃ placed after rest', pass.makeRoom cfg hash pick requestId request 1 fuel =
      some (placed, after) ∧ after.Ok cfg before rest' ∧ rest'.length ≤ rest.length ∧
      (cfg.policy = .fcfs → after.tokenBudget + 1 ≥ pass.tokenBudget ∧
        (placed = false → rest' = [])) := by
  have hMem : requestId ∈ pass.state.running := (hOk.sound.records requestId).2 ⟨request, hRunning⟩
  induction fuel generalizing pass rest with
  | zero =>
      rw [List.length_eq_zero_iff.1 (Nat.le_zero.1 hFuel)] at hMem
      cases hMem
  | succ fuel ih =>
      have hReady := hOk.ready requestId List.mem_cons_self request hRunning
      have hAsks : EngineConfig.Asks pass.state.core requestId request.tokens.length
          request.numComputedTokens := Or.inr ⟨request, hRunning, rfl, rfl, hReady.1⟩
      rcases hOk.sound.kept.allocateSlots hPick hAsks (Nat.le_of_lt hReady.2)
        (blockHashes hash cfg.blocks request.tokens) 1 with hNo | ⟨kv, hYes, hKept⟩
      · obtain ⟨victim, hVictim⟩ := cfg.victim_isSome (List.ne_nil_of_mem hMem)
        obtain ⟨after, rest', hPreempt, hAfter, hLength, hErase, hElse, hFirst⟩ :=
          hOk.preempt hVictim
        by_cases hSelf : victim = requestId
        · rw [if_pos hSelf] at hAfter
          refine ⟨false, after, rest, ?_, hAfter, Nat.le_refl _, ?_⟩
          · simp only [Pass.makeRoom, hNo, hVictim, hPreempt, Option.bind_eq_bind, Option.bind_some,
              Bool.false_eq_true, if_false]
            rw [if_pos hSelf]
          · intro hPolicy
            obtain ⟨hBudget, hLast⟩ := hFirst hPolicy
            exact ⟨by omega, fun _ => hLast hSelf⟩
        · rw [if_neg hSelf] at hAfter
          have hStill := (hElse requestId request).2 ⟨Ne.symm hSelf, hRunning⟩
          have hFewer : after.state.running.length ≤ fuel := by
            have hLen := List.length_erase_of_mem (EngineConfig.victim_mem hVictim)
            rw [hErase]
            omega
          obtain ⟨placed, last, rest'', hRun, hLast, hShort, hEnd⟩ := ih hAfter hStill hFewer
            ((hAfter.sound.records requestId).2 ⟨request, hStill⟩)
          refine ⟨placed, last, rest'', ?_, hLast, Nat.le_trans hShort hLength, ?_⟩
          · simp only [Pass.makeRoom, hNo, hVictim, hPreempt, hSelf, hRun, Option.bind_eq_bind,
              Option.bind_some, Bool.false_eq_true, if_false]
          · intro hPolicy
            obtain ⟨hLater, hNone⟩ := hEnd hPolicy
            have hBudget := (hFirst hPolicy).1
            exact ⟨by omega, hNone⟩
      · refine ⟨true, pass.place requestId request 1 kv, rest, ?_,
          hOk.place hRunning (hKept _ rfl hReady.1.symm), Nat.le_refl _, fun _ => ⟨?_, nofun⟩⟩
        · simp only [Pass.makeRoom, hYes, Option.bind_eq_bind, Option.bind_some, if_true]
        · show pass.tokenBudget - 1 + 1 ≥ pass.tokenBudget
          omega

/-- The loop ends. Where it runs through, every request still running has been scheduled. -/
theorem Ok.decodeLoop (hOk : pass.Ok cfg before rest) (hPick : EngineConfig.Picks pick) {fuel : Nat}
    (hFuel : rest.length < fuel) :
    ∃ done rest', pass.decodeLoop cfg hash pick fuel = some done ∧ done.Ok cfg before rest' ∧
      (pass.RunsThrough cfg hash pick fuel → rest' = []) := by
  induction fuel generalizing pass rest with
  | zero => exact absurd hFuel (Nat.not_lt_zero _)
  | succ fuel ih =>
      cases rest with
      | nil =>
          refine ⟨pass, [], ?_, hOk, fun _ => rfl⟩
          have hEnd : pass.state.running[pass.reqIndex]? = none := by
            apply List.getElem?_eq_none
            rw [hOk.split, hOk.index, List.append_nil, Dict.keys, List.length_map]
          simp only [Pass.decodeLoop, hEnd]
      | cons requestId rest =>
          have hAt : pass.state.running[pass.reqIndex]? = some requestId := by
            rw [hOk.split, hOk.index, List.getElem?_append_right (by rw [List.length_map]),
              List.length_map, Nat.sub_self, List.getElem?_cons_zero]
          have hMem : requestId ∈ pass.state.running := List.mem_of_getElem? hAt
          obtain ⟨request, hRunning⟩ := (hOk.sound.records requestId).1 hMem
          by_cases hBudget : pass.tokenBudget = 0
          · refine ⟨pass, requestId :: rest, ?_, hOk, ?_⟩
            · simp only [Pass.decodeLoop, hAt, hBudget, if_true]
            · intro hThrough
              exact absurd hBudget (hThrough requestId request hAt hRunning).1
          · have hReady := hOk.ready requestId List.mem_cons_self request hRunning
            have hOne : pass.numNewTokens cfg request = 1 := by
              obtain ⟨hNext, hShort⟩ := hReady
              unfold Pass.numNewTokens
              omega
            obtain ⟨placed, after, rest', hRoom, hAfter, hLength, -⟩ :=
              hOk.makeRoom hash hRunning hPick (Nat.le_refl _)
            have hUnfold : pass.decodeLoop cfg hash pick (fuel + 1) =
                if placed then after.decodeLoop cfg hash pick fuel else some after := by
              simp only [Pass.decodeLoop, hAt, hBudget, hRunning, hOne, hRoom, Option.bind_eq_bind,
                Option.bind_some, if_false, Nat.one_ne_zero]
            cases placed with
            | false =>
                refine ⟨after, rest', hUnfold, hAfter, ?_⟩
                intro hThrough
                have hEnd := (hThrough requestId request hAt hRunning).2 false after
                  (by rw [hOne]; exact hRoom)
                replace hEnd : after.state.running.length ≤ after.reqIndex := hEnd
                rw [hAfter.split, hAfter.index, List.length_append, List.length_map] at hEnd
                exact List.length_eq_zero_iff.1 (by omega)
            | true =>
                have hShorter : rest'.length < fuel := by
                  rw [List.length_cons] at hFuel
                  omega
                obtain ⟨done, last, hRun, hDone, hCover⟩ := ih hAfter hShorter
                refine ⟨done, last, hUnfold.trans hRun, hDone, ?_⟩
                intro hThrough
                exact hCover ((hThrough requestId request hAt hRunning).2 true after
                  (by rw [hOne]; exact hRoom))

/-- First come, first served runs through, once the budget is enough for all requests. -/
theorem Ok.runsThrough (hOk : pass.Ok cfg before rest) (hPick : EngineConfig.Picks pick)
    (hPolicy : cfg.policy = .fcfs) (hBudget : rest.length ≤ pass.tokenBudget) (fuel : Nat) :
    pass.RunsThrough cfg hash pick fuel := by
  induction fuel generalizing pass rest with
  | zero => trivial
  | succ fuel ih =>
      intro requestId request hAt hRunning
      cases rest with
      | nil =>
          rw [hOk.split, hOk.index, List.append_nil, List.getElem?_eq_none
            (by rw [Dict.keys, List.length_map])] at hAt
          cases hAt
      | cons first rest =>
          rw [hOk.split, hOk.index, List.getElem?_append_right (by rw [List.length_map]),
            List.length_map, Nat.sub_self, List.getElem?_cons_zero, Option.some.injEq] at hAt
          subst hAt
          rw [List.length_cons] at hBudget
          refine ⟨by omega, ?_⟩
          intro placed after hRoom
          have hReady := hOk.ready first List.mem_cons_self request hRunning
          have hOne : pass.numNewTokens cfg request = 1 := by
            obtain ⟨hNext, hShort⟩ := hReady
            unfold Pass.numNewTokens
            omega
          obtain ⟨placed', after', rest', hSame, hAfter, hLength, hFirst⟩ :=
            hOk.makeRoom hash hRunning hPick (Nat.le_refl _)
          rw [hOne, hSame, Option.some.injEq, Prod.mk.injEq] at hRoom
          obtain ⟨rfl, rfl⟩ := hRoom
          obtain ⟨hLater, hNone⟩ := hFirst hPolicy
          cases placed' with
          | true => exact ih hAfter (by omega)
          | false =>
              show after'.state.running.length ≤ after'.reqIndex
              rw [hAfter.split, hAfter.index, hNone rfl, List.append_nil, Dict.keys, List.length_map]

end Loop

end Pass

end VllmRbln.Optimum
