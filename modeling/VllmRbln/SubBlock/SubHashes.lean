import VllmRbln.Common.HashChain
import VllmRbln.Common.Run
import VllmRbln.SubBlock.Manager

/-! The sub-block hashes that the manager keeps of each request (`_get_or_compute_sub_hashes` in
`v1/core/rbln_kv_cache_manager.py`). They are only ever extended, from the tokens hashed so far and
with the multimodal index reached there, while a streaming session cuts tokens off. -/
namespace VllmRbln.SubBlock.SubHashes

open Run
open Scheduler (ReqId Token)

variable {H X A : Type}

/-- A multimodal input and its placeholder. -/
structure MmFeature where
  identifier : Nat
  offset : Nat
  length : Nat
  deriving DecidableEq, Repr

/-- Placeholders that follow one another. -/
def Ordered (features : List MmFeature) : Prop :=
  features.Pairwise fun a b => a.offset + a.length ≤ b.offset

/-- One input of a session: its tokens, and placeholders among them. -/
structure Prompt where
  tokenIds : List Token
  mmFeatures : List MmFeature
  ordered : Ordered mmFeatures
  inPrompt : ∀ feature ∈ mmFeatures, feature.offset + feature.length ≤ tokenIds.length

/-- What hashing reads of a request; `attributes` is what else enters the extra keys, the cache
salt, the LoRA adapter and prompt embeddings. -/
structure Request (A : Type) where
  attributes : A
  numPromptTokens : Nat
  allTokenIds : List Token
  mmFeatures : List MmFeature
  numComputedTokens : Nat

/-- `SubBlockHasher`, over the functions of vLLM that it calls. -/
structure Hasher (H X A : Type) where
  subBlockSize : Nat
  subBlockSize_pos : 0 < subBlockSize
  hashBlockTokens : Option H → List Token → Option X → H
  needExtraKeys : A → List MmFeature → Bool
  generateBlockHashExtraKeys : A → List MmFeature → Nat → Nat → Nat → Option X × Nat

/-- `_SubHashState`. -/
structure SubHashState (H X : Type) where
  hashes : List H
  extraKeys : List (Option X)
  mmIdx : Nat
  deriving DecidableEq

def SubHashState.empty : SubHashState H X := ⟨[], [], 0⟩

/-- The state with further sub-blocks. -/
def SubHashState.extend (state new : SubHashState H X) : SubHashState H X :=
  ⟨state.hashes ++ new.hashes, state.extraKeys ++ new.extraKeys, new.mmIdx⟩

namespace Hasher

/-- The extra keys of the sub-block at `i`, and the multimodal index behind it. -/
def keys (hasher : Hasher H X A) (attributes : A) (features : List MmFeature) (i mmIdx : Nat) :
    Option X × Nat :=
  if hasher.needExtraKeys attributes features then
    hasher.generateBlockHashExtraKeys attributes features i (i + hasher.subBlockSize) mmIdx
  else (none, mmIdx)

/-- `hash_tokens`, for `count` sub-blocks from `i` on. -/
def hashTokens (hasher : Hasher H X A) (request : Request A) :
    Option H → Nat → Nat → Nat → SubHashState H X
  | _, _, mmIdx, 0 => ⟨[], [], mmIdx⟩
  | parentHash, i, mmIdx, count + 1 =>
      let keys := hasher.keys request.attributes request.mmFeatures i mmIdx
      let hash := hasher.hashBlockTokens parentHash
        ((request.allTokenIds.drop i).take hasher.subBlockSize) keys.1
      let rest := hashTokens hasher request (some hash) (i + hasher.subBlockSize) keys.2 count
      ⟨hash :: rest.hashes, keys.1 :: rest.extraKeys, rest.mmIdx⟩

/-- Full sub-blocks of the tokens from `start` on. -/
def numFull (hasher : Hasher H X A) (request : Request A) (start : Nat) : Nat :=
  (request.allTokenIds.length - start) / hasher.subBlockSize

/-- `_get_or_compute_sub_hashes`, from what is recorded for the request. -/
def getOrComputeSubHashes (hasher : Hasher H X A) (request : Request A)
    (recorded : Option (SubHashState H X)) : SubHashState H X :=
  let state := recorded.getD .empty
  let numHashedTokens := state.hashes.length * hasher.subBlockSize
  let new := hasher.hashTokens request state.hashes.getLast? numHashedTokens state.mmIdx
    (hasher.numFull request numHashedTokens)
  if new.hashes.isEmpty then state else state.extend new

/-- All full sub-blocks hashed at once. -/
def hashAll (hasher : Hasher H X A) (request : Request A) : SubHashState H X :=
  hasher.hashTokens request none 0 0 (hasher.numFull request 0)

end Hasher

/-! ### Histories of requests -/

structure State (H X A : Type) where
  requests : ReqId → Option (Request A)
  reqSubHashes : ReqId → Option (SubHashState H X)

def State.initial : State H X A := ⟨fun _ => none, fun _ => none⟩

/-- Sampled and accepted draft tokens are appended; computed tokens are counted up by a step and
down when drafts are rejected. -/
inductive Action (A : Type)
  | addRequest (id : ReqId) (attributes : A) (prompt : Prompt)
  | append (id : ReqId) (tokens : List Token)
  | compute (id : ReqId) (numComputedTokens : Nat)
  | preempt (id : ReqId)
  | free (id : ReqId)
  | updateSession (id : ReqId) (prompt : Prompt)
  | getOrCompute (id : ReqId)

/-- The next input of a session: tokens that are not computed go, the new ones come behind those
that are kept, and so do their placeholders. -/
def Request.updateSession (request : Request A) (prompt : Prompt) : Request A :=
  let kept := request.allTokenIds.take request.numComputedTokens
  { request with
    numPromptTokens := kept.length + prompt.tokenIds.length
    allTokenIds := kept ++ prompt.tokenIds
    mmFeatures := request.mmFeatures ++ prompt.mmFeatures.map fun feature =>
      { feature with offset := feature.offset + kept.length } }

def State.setRequest (s : State H X A) (id : ReqId) (request : Request A) : State H X A :=
  { s with requests := Function.update s.requests id (some request) }

def State.dropHashes (s : State H X A) (id : ReqId) : State H X A :=
  { s with reqSubHashes := Function.update s.reqSubHashes id none }

/-- The blocks of a preempted or freed request leave the manager, and its hashes with them. A
session gets its next input once the one before is computed. -/
def step (hasher : Hasher H X A) (s : State H X A) : Action A → Option (State H X A)
  | .addRequest id attributes prompt =>
      if (s.requests id).isSome then none
      else some (s.setRequest id
        ⟨attributes, prompt.tokenIds.length, prompt.tokenIds, prompt.mmFeatures, 0⟩)
  | .append id tokens =>
      (s.requests id).map fun request =>
        s.setRequest id { request with allTokenIds := request.allTokenIds ++ tokens }
  | .compute id numComputedTokens =>
      (s.requests id).map fun request =>
        s.setRequest id { request with numComputedTokens := numComputedTokens }
  | .preempt id =>
      (s.requests id).map fun request =>
        (s.setRequest id { request with numComputedTokens := 0 }).dropHashes id
  | .free id =>
      (s.requests id).map fun _ =>
        { s.dropHashes id with requests := Function.update s.requests id none }
  | .updateSession id prompt =>
      (s.requests id).bind fun request =>
        if request.numPromptTokens ≤ request.numComputedTokens then
          some (s.setRequest id (request.updateSession prompt))
        else none
  | .getOrCompute id =>
      (s.requests id).map fun request =>
        { s with
          reqSubHashes := Function.update s.reqSubHashes id
            (some (hasher.getOrComputeSubHashes request (s.reqSubHashes id))) }

/-! ### Hashing in pieces -/

namespace Hasher

variable (hasher : Hasher H X A)

@[simp]
theorem hashTokens_length (request : Request A) (parentHash : Option H) (i mmIdx count : Nat) :
    (hasher.hashTokens request parentHash i mmIdx count).hashes.length = count := by
  induction count generalizing parentHash i mmIdx with
  | zero => rfl
  | succ count ih => rw [hashTokens, List.length_cons, ih]

/-- What is hashed in two pieces is hashed at once. -/
theorem hashTokens_add (request : Request A) (parentHash : Option H) (i mmIdx first more : Nat) :
    hasher.hashTokens request parentHash i mmIdx (first + more) =
      (hasher.hashTokens request parentHash i mmIdx first).extend
        (hasher.hashTokens request
          ((hasher.hashTokens request parentHash i mmIdx first).hashes.getLast?.or parentHash)
          (i + first * hasher.subBlockSize)
          (hasher.hashTokens request parentHash i mmIdx first).mmIdx more) := by
  induction first generalizing parentHash i mmIdx with
  | zero =>
      rw [Nat.zero_add, Nat.zero_mul, Nat.add_zero]
      rfl
  | succ first ih =>
      have hNext : i + (first + 1) * hasher.subBlockSize =
          i + hasher.subBlockSize + first * hasher.subBlockSize := by ring
      rw [Nat.succ_add, hashTokens, ih, hNext]
      have hLast (hash : H) (hashes : List H) (parent : Option H) :
          (hash :: hashes).getLast?.or parent = hashes.getLast?.or (some hash) := by
        rw [List.getLast?_cons]
        cases hashes.getLast? <;> rfl
      simp only [hashTokens, SubHashState.extend, hLast, List.cons_append]

/-- The multimodal index behind the first `k` sub-blocks. -/
def mmIdxAt (attributes : A) (features : List MmFeature) : Nat → Nat
  | 0 => 0
  | k + 1 =>
      (hasher.keys attributes features (k * hasher.subBlockSize) (mmIdxAt attributes features k)).2

/-- The extra keys of sub-block `k`. -/
def keysAt (attributes : A) (features : List MmFeature) (k : Nat) : Option X :=
  (hasher.keys attributes features (k * hasher.subBlockSize)
    (hasher.mmIdxAt attributes features k)).1

/-- The first `n` sub-blocks hashed at once. -/
def hashFirst (request : Request A) (n : Nat) : SubHashState H X :=
  hasher.hashTokens request none 0 0 n

theorem hashFirst_add (request : Request A) (n more : Nat) : hasher.hashFirst request (n + more) =
    (hasher.hashFirst request n).extend (hasher.hashTokens request
      (hasher.hashFirst request n).hashes.getLast? (n * hasher.subBlockSize)
      (hasher.hashFirst request n).mmIdx more) := by
  unfold hashFirst
  rw [hashTokens_add, Option.or_none, Nat.zero_add]

theorem hashFirst_succ (request : Request A) (n : Nat) : hasher.hashFirst request (n + 1) =
    (hasher.hashFirst request n).extend (hasher.hashTokens request
      (hasher.hashFirst request n).hashes.getLast? (n * hasher.subBlockSize)
      (hasher.hashFirst request n).mmIdx 1) :=
  hasher.hashFirst_add request n 1

theorem hashFirst_mmIdx (request : Request A) (n : Nat) :
    (hasher.hashFirst request n).mmIdx = hasher.mmIdxAt request.attributes request.mmFeatures n := by
  induction n with
  | zero => rfl
  | succ n ih =>
      rw [hashFirst_succ, ih]
      rfl

/-- The hashes are the chained ones of the library, so each names all tokens up to its end. -/
theorem hashFirst_hashes (request : Request A) (n : Nat) : (hasher.hashFirst request n).hashes =
    HashChain.prefixHashes hasher.hashBlockTokens hasher.subBlockSize
      (fun i => hasher.keysAt request.attributes request.mmFeatures (i / hasher.subBlockSize))
      request.allTokenIds n := by
  have hDiv (k : Nat) : k * hasher.subBlockSize / hasher.subBlockSize = k :=
    Nat.mul_div_left k hasher.subBlockSize_pos
  induction n with
  | zero => rfl
  | succ n ih =>
      have hPiece : (hasher.hashTokens request (hasher.hashFirst request n).hashes.getLast?
          (n * hasher.subBlockSize) (hasher.hashFirst request n).mmIdx 1).hashes =
          [HashChain.prefixHash hasher.hashBlockTokens hasher.subBlockSize
            (fun i => hasher.keysAt request.attributes request.mmFeatures (i / hasher.subBlockSize))
            request.allTokenIds n] := by
        rw [hashFirst_mmIdx, ih]
        cases n with
        | zero =>
            simp [hashTokens, HashChain.prefixHashes, HashChain.prefixHash, keysAt]
        | succ n =>
            simp only [hashTokens, HashChain.prefixHashes, HashChain.prefixHash, keysAt,
              List.range_succ, List.map_append, List.map_cons, List.map_nil,
              List.getLast?_append, List.getLast?_singleton, Option.some_or, hDiv]
      rw [hashFirst_succ, SubHashState.extend]
      dsimp only
      rw [hPiece, ih, HashChain.prefixHashes, HashChain.prefixHashes, List.range_succ,
        List.map_append]
      rfl

/-- Hashes, keys and index of the first sub-blocks depend on their tokens and keys alone. -/
theorem hashFirst_congr {request request' : Request A} {n : Nat}
    (hTokens : request.allTokenIds.take (n * hasher.subBlockSize) =
      request'.allTokenIds.take (n * hasher.subBlockSize))
    (hKeys : ∀ k < n, hasher.keys request'.attributes request'.mmFeatures (k * hasher.subBlockSize)
        (hasher.mmIdxAt request.attributes request.mmFeatures k) =
      hasher.keys request.attributes request.mmFeatures (k * hasher.subBlockSize)
        (hasher.mmIdxAt request.attributes request.mmFeatures k)) :
    hasher.hashFirst request n = hasher.hashFirst request' n := by
  induction n with
  | zero => rfl
  | succ n ih =>
      have hSize : (n + 1) * hasher.subBlockSize =
          n * hasher.subBlockSize + hasher.subBlockSize := Nat.succ_mul ..
      rw [hSize] at hTokens
      have hShort : request.allTokenIds.take (n * hasher.subBlockSize) =
          request'.allTokenIds.take (n * hasher.subBlockSize) := by
        have hTake := congrArg (List.take (n * hasher.subBlockSize)) hTokens
        rwa [List.take_take, List.take_take, Nat.min_eq_left (Nat.le_add_right _ _)] at hTake
      have hPiece : (request.allTokenIds.drop (n * hasher.subBlockSize)).take hasher.subBlockSize =
          (request'.allTokenIds.drop (n * hasher.subBlockSize)).take hasher.subBlockSize := by
        have hDrop := congrArg (List.drop (n * hasher.subBlockSize)) hTokens
        rwa [List.drop_take, List.drop_take, Nat.add_sub_cancel_left] at hDrop
      have hFirst := ih hShort fun k hLt => hKeys k (Nat.lt_succ_of_lt hLt)
      have hLast := hKeys n (Nat.lt_succ_self n)
      rw [hashFirst_succ, hashFirst_succ, ← hFirst, hashFirst_mmIdx]
      simp only [hashTokens, hPiece, hLast]

/-- The manager's model of `hash_tokens`, which is given the extra keys of each sub-block, computes
the same hashes. -/
theorem manager_hashTokens_eq {hashing : Hashing H X} {request : Request A} {id : ReqId}
    (hHash : hashing.hashBlockTokens = hasher.hashBlockTokens)
    (hKeys : ∀ k, hashing.extraKeys id (k * hasher.subBlockSize)
      (k * hasher.subBlockSize + hasher.subBlockSize) =
        hasher.keysAt request.attributes request.mmFeatures k)
    (parentHash : Option H) (k count : Nat) :
    Manager.hashTokens hashing hasher.subBlockSize id request.allTokenIds parentHash
        (k * hasher.subBlockSize) count =
      (hasher.hashTokens request parentHash (k * hasher.subBlockSize)
        (hasher.mmIdxAt request.attributes request.mmFeatures k) count).hashes := by
  induction count generalizing parentHash k with
  | zero => rfl
  | succ count ih =>
      have hNext : k * hasher.subBlockSize + hasher.subBlockSize = (k + 1) * hasher.subBlockSize :=
        (Nat.succ_mul k hasher.subBlockSize).symm
      rw [Manager.hashTokens, hashTokens, hKeys, hHash]
      dsimp only
      rw [hNext, ih]
      rfl

/-- Recorded hashes of the first sub-blocks are extended to all of them. -/
theorem getOrComputeSubHashes_eq {request : Request A} {recorded : Option (SubHashState H X)}
    {n : Nat} (hFull : n * hasher.subBlockSize ≤ request.allTokenIds.length)
    (hRecorded : recorded.getD .empty = hasher.hashFirst request n) :
    hasher.getOrComputeSubHashes request recorded = hasher.hashAll request := by
  have hLength : (hasher.hashFirst request n).hashes.length = n := hasher.hashTokens_length ..
  have hRest : hasher.numFull request 0 = n + hasher.numFull request (n * hasher.subBlockSize) := by
    have hSplit : request.allTokenIds.length - 0 = request.allTokenIds.length -
        n * hasher.subBlockSize + n * hasher.subBlockSize := by omega
    rw [numFull, numFull, hSplit, Nat.add_mul_div_right _ _ hasher.subBlockSize_pos, Nat.add_comm]
  have hAll : hasher.hashAll request = hasher.hashFirst request (hasher.numFull request 0) := rfl
  rw [getOrComputeSubHashes, hRecorded, hLength, hAll, hRest, hashFirst_add]
  cases hCount : hasher.numFull request (n * hasher.subBlockSize) with
  | zero =>
      simp [hashTokens, SubHashState.extend]
  | succ count => rfl

/-- What the manager relies on of vLLM's extra keys. A request that needs none gets none, and
neither the keys of a sub-block nor the index behind it look at placeholders further on. -/
structure Lawful (hasher : Hasher H X A) : Prop where
  unneeded : ∀ {attributes features}, hasher.needExtraKeys attributes features = false →
    ∀ i j mmIdx, hasher.generateBlockHashExtraKeys attributes features i j mmIdx = (none, mmIdx)
  behind : ∀ {attributes features more k}, Ordered (features ++ more) →
    (∀ feature ∈ more, (k + 1) * hasher.subBlockSize ≤ feature.offset) →
    hasher.generateBlockHashExtraKeys attributes (features ++ more) (k * hasher.subBlockSize)
        (k * hasher.subBlockSize + hasher.subBlockSize) (hasher.mmIdxAt attributes features k) =
      hasher.generateBlockHashExtraKeys attributes features (k * hasher.subBlockSize)
        (k * hasher.subBlockSize + hasher.subBlockSize) (hasher.mmIdxAt attributes features k)

variable {hasher}

theorem Lawful.keys_eq (lawful : hasher.Lawful) (attributes : A) (features : List MmFeature)
    (i mmIdx : Nat) : hasher.keys attributes features i mmIdx =
      hasher.generateBlockHashExtraKeys attributes features i (i + hasher.subBlockSize) mmIdx := by
  cases hNeed : hasher.needExtraKeys attributes features with
  | true => rw [keys, if_pos hNeed]
  | false => rw [keys, hNeed, lawful.unneeded hNeed, if_neg (by simp)]

end Hasher

/-! ### Runs -/

/-- Requests as vLLM keeps them: placeholders follow one another and lie in the prompt. -/
structure Request.Ok (request : Request A) : Prop where
  ordered : Ordered request.mmFeatures
  inPrompt : ∀ feature ∈ request.mmFeatures,
    feature.offset + feature.length ≤ request.numPromptTokens
  prompt_le : request.numPromptTokens ≤ request.allTokenIds.length

/-- The recorded hashes are those of the first sub-blocks. -/
def Fresh (hasher : Hasher H X A) (request : Request A)
    (recorded : Option (SubHashState H X)) : Prop :=
  ∃ n, n * hasher.subBlockSize ≤ request.allTokenIds.length ∧
    recorded.getD .empty = hasher.hashFirst request n

structure Invariant (hasher : Hasher H X A) (s : State H X A) : Prop where
  request : ∀ {id request}, s.requests id = some request → request.Ok
  fresh : ∀ {id request}, s.requests id = some request → Fresh hasher request (s.reqSubHashes id)
  gone : ∀ {id}, s.requests id = none → s.reqSubHashes id = none

/-- Tokens whose hashes are recorded for a request. -/
def State.numHashedTokens (hasher : Hasher H X A) (s : State H X A) (id : ReqId) : Nat :=
  ((s.reqSubHashes id).getD .empty).hashes.length * hasher.subBlockSize

/-- The next input of a session leaves every hashed token in its place: what it cuts off of them
comes back, and no new placeholder lies among them. -/
def KeepsHashed (hasher : Hasher H X A) (s : State H X A) : Action A → Prop
  | .updateSession id prompt => ∀ request ∈ s.requests id,
      (request.updateSession prompt).allTokenIds.take (s.numHashedTokens hasher id) =
        request.allTokenIds.take (s.numHashedTokens hasher id) ∧
      ∀ feature ∈ prompt.mmFeatures, s.numHashedTokens hasher id ≤
        feature.offset + min request.numComputedTokens request.allTokenIds.length
  | _ => True

instance (hasher : Hasher H X A) (s : State H X A) : ∀ action, Decidable (KeepsHashed hasher s action)
  | .updateSession id _ => inferInstanceAs (Decidable (∀ request ∈ s.requests id, _ ∧ _))
  | .addRequest .. | .append .. | .compute .. | .preempt _ | .free _ | .getOrCompute _ =>
      inferInstanceAs (Decidable True)

theorem Fresh.none (hasher : Hasher H X A) (request : Request A) : Fresh hasher request none :=
  ⟨0, by omega, rfl⟩

theorem Fresh.append {hasher : Hasher H X A} {request : Request A}
    {recorded : Option (SubHashState H X)} (hFresh : Fresh hasher request recorded)
    (tokens : List Token) :
    Fresh hasher { request with allTokenIds := request.allTokenIds ++ tokens } recorded := by
  obtain ⟨n, hFull, hRecorded⟩ := hFresh
  refine ⟨n, ?_, ?_⟩
  · show n * hasher.subBlockSize ≤ (request.allTokenIds ++ tokens).length
    rw [List.length_append]
    omega
  · rw [hRecorded]
    apply hasher.hashFirst_congr
    · exact (List.take_append_of_le_length hFull).symm
    · intro k _
      rfl

/-- Hashing does not look at the computed tokens. -/
theorem Fresh.compute {hasher : Hasher H X A} {request : Request A}
    {recorded : Option (SubHashState H X)} (hFresh : Fresh hasher request recorded)
    (numComputedTokens : Nat) :
    Fresh hasher { request with numComputedTokens := numComputedTokens } recorded := by
  obtain ⟨n, hFull, hRecorded⟩ := hFresh
  refine ⟨n, hFull, ?_⟩
  rw [hRecorded]
  exact hasher.hashFirst_congr rfl fun k _ => rfl

theorem Request.Ok.compute {request : Request A} (hOk : request.Ok) (numComputedTokens : Nat) :
    { request with numComputedTokens := numComputedTokens }.Ok :=
  ⟨hOk.ordered, hOk.inPrompt, hOk.prompt_le⟩

/-- Placeholders further on leave the keys and the index of the first sub-blocks. -/
theorem Hasher.Lawful.mmIdxAt_append {hasher : Hasher H X A} (lawful : hasher.Lawful)
    {attributes : A} {features more : List MmFeature} (hOrdered : Ordered (features ++ more))
    {n : Nat} (hBehind : ∀ feature ∈ more, n * hasher.subBlockSize ≤ feature.offset) {k : Nat}
    (hLt : k < n) :
    hasher.keys attributes (features ++ more) (k * hasher.subBlockSize)
        (hasher.mmIdxAt attributes features k) =
      hasher.keys attributes features (k * hasher.subBlockSize)
        (hasher.mmIdxAt attributes features k) := by
  rw [lawful.keys_eq, lawful.keys_eq]
  apply lawful.behind hOrdered
  intro feature hMem
  exact Nat.le_trans (Nat.mul_le_mul_right _ hLt) (hBehind feature hMem)

theorem Request.Ok.updateSession {request : Request A} (hOk : request.Ok)
    (hComputed : request.numPromptTokens ≤ request.numComputedTokens) (prompt : Prompt) :
    (request.updateSession prompt).Ok := by
  have hKept : request.numPromptTokens ≤
      (request.allTokenIds.take request.numComputedTokens).length := by
    rw [List.length_take]
    exact Nat.le_min.2 ⟨hComputed, hOk.prompt_le⟩
  constructor
  · unfold Ordered Request.updateSession
    rw [List.pairwise_append]
    refine ⟨hOk.ordered, ?_, ?_⟩
    · rw [List.pairwise_map]
      apply prompt.ordered.imp
      intro a b hBefore
      show a.offset + _ + a.length ≤ b.offset + _
      omega
    · intro a hMem b hNew
      obtain ⟨feature, -, rfl⟩ := List.mem_map.1 hNew
      have hIn := hOk.inPrompt a hMem
      show a.offset + a.length ≤ feature.offset + _
      omega
  · intro feature hMem
    show feature.offset + feature.length ≤ _ + prompt.tokenIds.length
    rcases List.mem_append.1 hMem with hMem | hMem
    · have hIn := hOk.inPrompt feature hMem
      omega
    · obtain ⟨new, hNew, rfl⟩ := List.mem_map.1 hMem
      have hIn := prompt.inPrompt new hNew
      show new.offset + _ + new.length ≤ _
      omega
  · show _ + prompt.tokenIds.length ≤ (_ ++ prompt.tokenIds).length
    rw [List.length_append]

theorem Fresh.updateSession {hasher : Hasher H X A} (lawful : hasher.Lawful) {request : Request A}
    (hOk : request.Ok) (hComputed : request.numPromptTokens ≤ request.numComputedTokens)
    {prompt : Prompt} {recorded : Option (SubHashState H X)} (hFresh : Fresh hasher request recorded)
    (hTokens : (request.updateSession prompt).allTokenIds.take
        ((recorded.getD .empty).hashes.length * hasher.subBlockSize) =
      request.allTokenIds.take ((recorded.getD .empty).hashes.length * hasher.subBlockSize))
    (hFeatures : ∀ feature ∈ prompt.mmFeatures,
      (recorded.getD .empty).hashes.length * hasher.subBlockSize ≤
        feature.offset + min request.numComputedTokens request.allTokenIds.length) :
    Fresh hasher (request.updateSession prompt) recorded := by
  obtain ⟨n, hFull, hRecorded⟩ := hFresh
  have hLength : (hasher.hashFirst request n).hashes.length = n := hasher.hashTokens_length ..
  rw [hRecorded, hLength] at hTokens hFeatures
  refine ⟨n, ?_, ?_⟩
  · have hSame := congrArg List.length hTokens
    rw [List.length_take, List.length_take] at hSame
    omega
  · rw [hRecorded]
    apply hasher.hashFirst_congr hTokens.symm
    intro k hLt
    apply lawful.mmIdxAt_append (hOk.updateSession hComputed prompt).ordered _ hLt
    intro feature hMem
    obtain ⟨new, hNew, rfl⟩ := List.mem_map.1 hMem
    have hLe := hFeatures new hNew
    show n * hasher.subBlockSize ≤
      new.offset + (request.allTokenIds.take request.numComputedTokens).length
    rw [List.length_take]
    exact hLe

theorem Fresh.getOrCompute {hasher : Hasher H X A} {request : Request A}
    {recorded : Option (SubHashState H X)} (hFresh : Fresh hasher request recorded) :
    Fresh hasher request (some (hasher.getOrComputeSubHashes request recorded)) := by
  obtain ⟨n, hFull, hRecorded⟩ := hFresh
  refine ⟨hasher.numFull request 0, ?_, ?_⟩
  · rw [Hasher.numFull, Nat.sub_zero]
    exact Nat.div_mul_le_self ..
  · rw [hasher.getOrComputeSubHashes_eq hFull hRecorded]
    rfl

section

variable {hasher : Hasher H X A} {s : State H X A}

/-- A call for one request leaves the others as they are. -/
theorem Invariant.set (hInv : Invariant hasher s) {id : ReqId} {request : Request A}
    {recorded : Option (SubHashState H X)} (hOk : request.Ok)
    (hFresh : Fresh hasher request recorded) {s' : State H X A}
    (hRequests : s'.requests = Function.update s.requests id (some request))
    (hHashes : s'.reqSubHashes = Function.update s.reqSubHashes id recorded) :
    Invariant hasher s' where
  request {other found} hFound := by
    rw [hRequests] at hFound
    by_cases hEq : other = id
    · subst hEq
      rw [Function.update_self] at hFound
      cases hFound
      exact hOk
    · rw [Function.update_of_ne hEq] at hFound
      exact hInv.request hFound
  fresh {other found} hFound := by
    rw [hRequests] at hFound
    rw [hHashes]
    by_cases hEq : other = id
    · subst hEq
      rw [Function.update_self] at hFound ⊢
      cases hFound
      exact hFresh
    · rw [Function.update_of_ne hEq] at hFound ⊢
      exact hInv.fresh hFound
  gone {other} hNone := by
    rw [hRequests] at hNone
    by_cases hEq : other = id
    · subst hEq
      rw [Function.update_self] at hNone
      cases hNone
    · rw [Function.update_of_ne hEq] at hNone
      rw [hHashes, Function.update_of_ne hEq]
      exact hInv.gone hNone

theorem Invariant.free (hInv : Invariant hasher s) (id : ReqId) :
    Invariant hasher { s.dropHashes id with requests := Function.update s.requests id none } where
  request {other found} hFound := by
    by_cases hEq : other = id
    · subst hEq
      simp at hFound
    · simp only [ne_eq, hEq, not_false_eq_true, Function.update_of_ne] at hFound
      exact hInv.request hFound
  fresh {other found} hFound := by
    by_cases hEq : other = id
    · subst hEq
      simp at hFound
    · simp only [ne_eq, hEq, not_false_eq_true, Function.update_of_ne] at hFound
      simp only [State.dropHashes, ne_eq, hEq, not_false_eq_true, Function.update_of_ne]
      exact hInv.fresh hFound
  gone {other} hNone := by
    by_cases hEq : other = id
    · subst hEq
      simp [State.dropHashes]
    · simp only [ne_eq, hEq, not_false_eq_true, Function.update_of_ne] at hNone
      simp only [State.dropHashes, ne_eq, hEq, not_false_eq_true, Function.update_of_ne]
      exact hInv.gone hNone

/-- A request that comes in. -/
theorem Prompt.ok (prompt : Prompt) (attributes : A) : Request.Ok
    ⟨attributes, prompt.tokenIds.length, prompt.tokenIds, prompt.mmFeatures, 0⟩ :=
  ⟨prompt.ordered, prompt.inPrompt, Nat.le_refl _⟩

theorem Invariant.step (lawful : hasher.Lawful) (hInv : Invariant hasher s) {action : Action A}
    (hKeeps : KeepsHashed hasher s action) {s' : State H X A}
    (hStep : step hasher s action = some s') : Invariant hasher s' := by
  cases action with
  | addRequest id attributes prompt =>
      simp only [SubHashes.step] at hStep
      split at hStep
      · cases hStep
      · rename_i hNew
        cases hStep
        have hNone : s.reqSubHashes id = none := hInv.gone (by simpa using hNew)
        apply hInv.set (prompt.ok attributes) (.none hasher _) rfl
        rw [← hNone, Function.update_eq_self]
        rfl
  | append id tokens =>
      obtain ⟨request, hRequest, rfl⟩ := Option.map_eq_some_iff.1 hStep
      have hOk := hInv.request hRequest
      apply hInv.set _ ((hInv.fresh hRequest).append tokens) rfl
      · rw [Function.update_eq_self]
        rfl
      · refine ⟨hOk.ordered, hOk.inPrompt, ?_⟩
        have hLe := hOk.prompt_le
        show request.numPromptTokens ≤ (request.allTokenIds ++ tokens).length
        rw [List.length_append]
        omega
  | compute id numComputedTokens =>
      obtain ⟨request, hRequest, rfl⟩ := Option.map_eq_some_iff.1 hStep
      apply hInv.set ((hInv.request hRequest).compute numComputedTokens)
        ((hInv.fresh hRequest).compute numComputedTokens) rfl
      rw [Function.update_eq_self]
      rfl
  | preempt id =>
      obtain ⟨request, hRequest, rfl⟩ := Option.map_eq_some_iff.1 hStep
      exact hInv.set ((hInv.request hRequest).compute 0) (.none hasher _) rfl rfl
  | free id =>
      obtain ⟨request, -, rfl⟩ := Option.map_eq_some_iff.1 hStep
      exact hInv.free id
  | updateSession id prompt =>
      obtain ⟨request, hRequest, hUpdate⟩ := Option.bind_eq_some_iff.1 hStep
      split at hUpdate
      · rename_i hComputed
        cases hUpdate
        have hOk := hInv.request hRequest
        obtain ⟨hTokens, hFeatures⟩ := hKeeps request hRequest
        apply hInv.set (hOk.updateSession hComputed prompt)
          ((hInv.fresh hRequest).updateSession lawful hOk hComputed hTokens hFeatures) rfl
        rw [Function.update_eq_self]
        rfl
      · cases hUpdate
  | getOrCompute id =>
      obtain ⟨request, hRequest, rfl⟩ := Option.map_eq_some_iff.1 hStep
      apply hInv.set (hInv.request hRequest) (hInv.fresh hRequest).getOrCompute _ rfl
      rw [← hRequest, Function.update_eq_self]

end

/-- In a history whose session updates leave the hashed tokens in place, the hashes, extra keys and
multimodal index that come back are those of hashing all tokens at once, whenever they are asked
for. So what a block is indexed under are the chained hashes of the request's own tokens. -/
theorem subHashes_fresh {hasher : Hasher H X A} (lawful : hasher.Lawful)
    {actions : List (Action A)} {s : State H X A}
    (along : Along (step hasher) (KeepsHashed hasher) State.initial actions)
    (run : runFrom (step hasher) State.initial actions = some s) {id : ReqId} {request : Request A}
    (hRequest : s.requests id = some request) :
    hasher.getOrComputeSubHashes request (s.reqSubHashes id) = hasher.hashAll request ∧
      (hasher.getOrComputeSubHashes request (s.reqSubHashes id)).hashes =
        HashChain.prefixHashes hasher.hashBlockTokens hasher.subBlockSize
          (fun i => hasher.keysAt request.attributes request.mmFeatures (i / hasher.subBlockSize))
          request.allTokenIds (request.allTokenIds.length / hasher.subBlockSize) := by
  have hInv : Invariant hasher s := by
    apply along.invariant (Invariant hasher) _ _ run
    · intro s action s' hKeeps hInv hStep
      exact hInv.step lawful hKeeps hStep
    · constructor <;> intro id
      · intro request hRequest
        cases hRequest
      · intro request hRequest
        cases hRequest
      · intro _
        rfl
  obtain ⟨n, hFull, hRecorded⟩ := hInv.fresh hRequest
  have hAll := hasher.getOrComputeSubHashes_eq hFull hRecorded
  apply And.intro hAll
  rw [hAll]
  exact hasher.hashFirst_hashes request _

/-- Sub-blocks of two tokens, no extra keys, and a hash without collisions. -/
def Hasher.plain : Hasher (HashChain.FreeHash Token (Option Nat)) Nat Unit where
  subBlockSize := 2
  subBlockSize_pos := Nat.two_pos
  hashBlockTokens := HashChain.FreeHash.extend
  needExtraKeys _ _ := false
  generateBlockHashExtraKeys _ _ _ _ mmIdx := (none, mmIdx)

theorem Hasher.plain_lawful : Hasher.plain.Lawful :=
  ⟨fun _ _ _ _ => rfl, fun _ _ => rfl⟩

/-- Tokens without placeholders. -/
def Prompt.text (tokenIds : List Token) : Prompt where
  tokenIds := tokenIds
  mmFeatures := []
  ordered := .nil
  inPrompt := by simp

/-- The last sampled token goes before it is hashed. -/
theorem subHashes_fresh_text : ∃ s request,
    runFrom (step Hasher.plain) State.initial
      [.addRequest 0 () (.text [1, 2, 3]), .getOrCompute 0, .compute 0 3, .append 0 [4],
        .updateSession 0 (.text [5])] = some s ∧
    s.requests 0 = some request ∧ request.allTokenIds = [1, 2, 3, 5] ∧
    Hasher.plain.getOrComputeSubHashes request (s.reqSubHashes 0) = Hasher.plain.hashAll request := by
  have along : Along (step Hasher.plain) (KeepsHashed Hasher.plain) State.initial
      [.addRequest 0 () (.text [1, 2, 3]), .getOrCompute 0, .compute 0 3, .append 0 [4],
        .updateSession 0 (.text [5])] := by decide
  have run := Option.some_get (x := runFrom (step Hasher.plain) State.initial
    [.addRequest 0 () (.text [1, 2, 3]), .getOrCompute 0, .compute 0 3, .append 0 [4],
      .updateSession 0 (.text [5])]) (by decide)
  exact ⟨_, ⟨(), 4, [1, 2, 3, 5], [], 3⟩, run.symm, rfl, rfl,
    (subHashes_fresh Hasher.plain_lawful along run.symm rfl).1⟩

/-- If it is hashed before it goes, its hash stays. -/
theorem subHashes_stale : ∃ s request,
    runFrom (step Hasher.plain) State.initial
      [.addRequest 0 () (.text [1]), .compute 0 1, .append 0 [2], .getOrCompute 0,
        .updateSession 0 (.text [3])] = some s ∧
    s.requests 0 = some request ∧ request.allTokenIds = [1, 3] ∧
    (Hasher.plain.getOrComputeSubHashes request (s.reqSubHashes 0)).hashes =
      [.first [1, 2] none] ∧
    (Hasher.plain.hashAll request).hashes = [.first [1, 3] none] := by
  have run := Option.some_get (x := runFrom (step Hasher.plain) State.initial
    [.addRequest 0 () (.text [1]), .compute 0 1, .append 0 [2], .getOrCompute 0,
      .updateSession 0 (.text [3])]) (by decide)
  exact ⟨_, ⟨(), 2, [1, 3], [], 1⟩, run.symm, rfl, rfl, by decide, by decide⟩

end VllmRbln.SubBlock.SubHashes
