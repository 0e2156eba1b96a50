import MintBot.Fire.Service
import MintBot.Library.KeyedGuard

/-!
# One unresolved request for a campaign

The in-memory guard is a guard with the campaigns as its keys.  A call that holds a campaign
has seen that no request of it is unresolved, and nothing but such a call makes one.
-/

namespace MintBot

open Fallible Machine

/-! ## Requests give way -/

theorem LiveRunRequest.not_expired_before {request : LiveRunRequest} {now later : Time}
    (passed : now ≤ later) (waiting : request.isExpired later = false) :
    request.isExpired now = false := by
  cases expires : request.expiresAt with
  | none => simp [isExpired, expires]
  | some expiresAt =>
      simp only [isExpired, expires, decide_eq_false_iff_not, Int.not_le] at waiting ⊢
      exact Int.lt_of_le_of_lt passed waiting

/-- Only a request that waits is claimed to be run. -/
theorem LiveRequestState.claimAt_started {request : LiveRunRequest} {now : Time}
    (started : (claimAt request now).1 = .started) : request.isExpired now = false := by
  unfold claimAt at started
  split at started
  · cases started
  · split at started
    · cases started
    · simpa using ‹¬request.isExpired now = true›

/-- No run opens again. -/
theorem CampaignState.isOpen_before {state next : CampaignState}
    (moved : state.mayBecome next = true) (later : next.isOpen = true) : state.isOpen = true := by
  cases state <;> cases next <;> simp_all [mayBecome, isOpen]

namespace StoredRequest

/-- The row of the same request later on: it has not become unresolved. -/
structure Settles (now later : Time) (row next : StoredRequest) : Prop where
  request : next.request = row.request
  origin : next.origin = row.origin
  earlier : next.Unresolved later → row.Unresolved now

/-- A request that is being started was claimed less than ten minutes ago. -/
def Prompt (now : Time) (row : StoredRequest) : Prop :=
  ∀ claimedAt, row.claim = some (.started, claimedAt) → row.run = none → row.resulted = false →
    now < claimedAt + FireStore.holdMs

theorem settles_later {now later : Time} (passed : now ≤ later) (row : StoredRequest) :
    Settles now later row row where
  request := rfl
  origin := rfl
  earlier unresolved := by
    rcases unresolved with ⟨unclaimed, waiting⟩ | pending | hasRun
    · exact .inl ⟨unclaimed, LiveRunRequest.not_expired_before passed waiting⟩
    · exact .inr (.inl pending)
    · exact .inr (.inr hasRun)

theorem receive_request (now : Time) (row : StoredRequest) (event : Event) :
    (row.receive now event).request = row.request ∧
      (row.receive now event).origin = row.origin := by
  cases event <;> simp only [receive] <;> repeat' split
  all_goals exact ⟨rfl, rfl⟩

theorem unresolved_before {now : Time} {row : StoredRequest} {event : Event}
    (unresolved : (row.receive now event).Unresolved now) : row.Unresolved now := by
  cases event with
  | claim =>
      simp only [receive] at unresolved
      split at unresolved
      · exact unresolved
      rename_i unclaimed
      rcases unresolved with ⟨none, -⟩ | ⟨⟨claimedAt, claimed⟩, -, -⟩ | hasRun
      · cases none
      · have started := (Prod.mk.inj (Option.some.inj claimed)).1
        exact .inl ⟨by simpa using unclaimed, LiveRequestState.claimAt_started started⟩
      · exact .inr (.inr hasRun)
  | cancel =>
      simp only [receive] at unresolved
      split at unresolved
      · exact unresolved
      rcases unresolved with ⟨none, -⟩ | ⟨⟨claimedAt, claimed⟩, -, -⟩ | hasRun
      · cases none
      · cases claimed
      · exact .inr (.inr hasRun)
  | arm runId =>
      simp only [receive] at unresolved
      split at unresolved
      · rename_i claimedAt started noRun
        split at unresolved
        · exact unresolved
        · rename_i noResult
          exact .inr (.inl ⟨⟨_, started⟩, noRun, by simpa using noResult⟩)
      · exact unresolved
  | moveRun target =>
      simp only [receive] at unresolved
      split at unresolved
      · rename_i run hasRun
        split at unresolved
        · rename_i moved
          rcases unresolved with waiting | ⟨-, none, -⟩ | ⟨later, same, isOpen⟩
          · exact .inl waiting
          · cases none
          · cases same
            exact .inr (.inr ⟨run, hasRun, CampaignState.isOpen_before moved isOpen⟩)
        · exact unresolved
      · exact unresolved
  | record =>
      simp only [receive] at unresolved
      split at unresolved
      · rcases unresolved with waiting | ⟨-, -, none⟩ | hasRun
        · exact .inl waiting
        · cases none
        · exact .inr (.inr hasRun)
      · exact unresolved

theorem settles_receive (now : Time) (row : StoredRequest) (event : Event) :
    Settles now now row (row.receive now event) where
  request := (receive_request now row event).1
  origin := (receive_request now row event).2
  earlier := unresolved_before

theorem prompt_receive {now : Time} {row : StoredRequest} (prompt : row.Prompt now)
    (event : Event) : (row.receive now event).Prompt now := by
  have soon : now < now + FireStore.holdMs := Int.lt_add_of_pos_right _ (by decide)
  cases event with
  | claim =>
      simp only [receive]
      split
      · exact prompt
      · intro claimedAt claimed _ _
        rw [← (Prod.mk.inj (Option.some.inj claimed)).2]
        exact soon
  | cancel =>
      simp only [receive]
      split
      · exact prompt
      · intro claimedAt claimed
        cases claimed
  | arm runId =>
      simp only [receive]
      split
      · split
        · exact prompt
        · intro claimedAt _ none
          cases none
      · exact prompt
  | moveRun target =>
      simp only [receive]
      split
      · split
        · intro claimedAt _ none
          cases none
        · exact prompt
      · exact prompt
  | record =>
      simp only [receive]
      split
      · intro claimedAt _ _ none
        cases none
      · exact prompt

/-- The service always gives a request a time at which it ends, and a run is for the campaign
of its request. -/
structure Proper (row : StoredRequest) : Prop where
  dated : row.origin ≠ .elsewhere → row.request.expiresAt.isSome = true
  ownRun : ∀ run, row.run = some run → run.campaignId = row.request.campaignId

theorem proper_receive {row : StoredRequest} (proper : row.Proper) (now : Time) (event : Event) :
    (row.receive now event).Proper where
  dated := by
    rw [(receive_request now row event).1, (receive_request now row event).2]
    exact proper.dated
  ownRun := by
    rw [(receive_request now row event).1]
    cases event with
    | claim | cancel | record =>
        simp only [receive]
        split <;> exact proper.ownRun
    | arm runId =>
        simp only [receive]
        split
        · split
          · exact proper.ownRun
          · rintro run ⟨⟩
            rfl
        · exact proper.ownRun
    | moveRun target =>
        simp only [receive]
        split
        · rename_i run hasRun
          split
          · rintro moved ⟨⟩
            exact proper.ownRun run hasRun
          · exact proper.ownRun
        · exact proper.ownRun

end StoredRequest

open StoredRequest

/-! ## The guard and the requests -/

/-- No request of the campaign from this route is unresolved. -/
def Clear (origin : RequestOrigin) (now : Time) (requests : List StoredRequest)
    (campaignId : CampaignId) : Prop :=
  ∀ row ∈ requests, row.origin = origin → row.request.campaignId = campaignId →
    ¬ row.Unresolved now

/-- One of the requests was created through the wiring and the other on the given route. -/
def Rivals (origin : RequestOrigin) (row other : StoredRequest) : Prop :=
  (row.origin = .fireWiring ∧ other.origin = origin) ∨
    (row.origin = origin ∧ other.origin = .fireWiring)

theorem Rivals.symm {origin : RequestOrigin} {row other : StoredRequest}
    (rivals : Rivals origin row other) : Rivals origin other row :=
  rivals.elim (fun both => .inr both.symm) (fun both => .inl both.symm)

/-- Rivals for one campaign are not unresolved together. -/
def NotBoth (origin : RequestOrigin) (now : Time) (row other : StoredRequest) : Prop :=
  Rivals origin row other → row.request.campaignId = other.request.campaignId →
    ¬ (row.Unresolved now ∧ other.Unresolved now)

/-- A fire that holds a campaign has no unresolved request of the route before it. -/
structure OneAtATime (origin : RequestOrigin) (now : Time) (requests : List StoredRequest)
    (holder : Nat → Option CampaignId) (inFlight : List CampaignId) : Prop where
  guarded : KeyedGuard.Guarded holder inFlight
  clear : ∀ number campaignId, holder number = some campaignId →
    Clear origin now requests campaignId
  single : requests.Pairwise (NotBoth origin now)
  proper : ∀ row ∈ requests, row.Proper

namespace OneAtATime

variable {origin : RequestOrigin} {now later : Time} {requests : List StoredRequest}
  {holder : Nat → Option CampaignId} {inFlight : List CampaignId}

theorem start : OneAtATime origin now [] (fun _ => none) [] where
  guarded := KeyedGuard.Guarded.empty
  clear _ _ none := by cases none
  single := List.Pairwise.nil
  proper _ none := by cases none

/-- Rows may settle while time passes. -/
theorem settle (held : OneAtATime origin now requests holder inFlight)
    {next : StoredRequest → StoredRequest} (settles : ∀ row, Settles now later row (next row))
    (proper : ∀ row ∈ requests, (next row).Proper) :
    OneAtATime origin later (requests.map next) holder inFlight where
  guarded := held.guarded
  clear number campaignId holds := by
    rw [Clear, List.forall_mem_map]
    intro row member ours same unresolved
    rw [(settles row).origin] at ours
    rw [(settles row).request] at same
    exact held.clear number campaignId holds row member ours same
      ((settles row).earlier unresolved)
  single := by
    rw [List.pairwise_map]
    refine held.single.imp ?_
    intro row other apart rivals same both
    rw [Rivals, (settles row).origin, (settles other).origin] at rivals
    rw [(settles row).request, (settles other).request] at same
    exact apart rivals same ⟨(settles row).earlier both.1, (settles other).earlier both.2⟩
  proper := by
    rw [List.forall_mem_map]
    exact proper

/-- The guard may change as long as no new holder comes in. -/
theorem handOver (held : OneAtATime origin now requests holder inFlight)
    {holder' : Nat → Option CampaignId} {inFlight' : List CampaignId}
    (guarded : KeyedGuard.Guarded holder' inFlight')
    (before : ∀ number campaignId, holder' number = some campaignId →
      holder number = some campaignId) :
    OneAtATime origin now requests holder' inFlight' :=
  { held with
    guarded := guarded
    clear := fun number campaignId holds =>
      held.clear number campaignId (before number campaignId holds) }

theorem acquire (held : OneAtATime origin now requests holder inFlight) {number : Nat}
    {campaignId : CampaignId} (idle : holder number = none) (free : campaignId ∉ inFlight)
    (clear : Clear origin now requests campaignId) :
    OneAtATime origin now requests (Function.update holder number (some campaignId))
      (campaignId :: inFlight) :=
  { held with
    guarded := held.guarded.acquire idle free
    clear := by
      intro other taken holds
      rcases KeyedGuard.Guarded.update_eq_some.mp holds with ⟨-, same⟩ | ⟨-, heldOther⟩
      · rwa [← Option.some.inj same]
      · exact held.clear other taken heldOther }

theorem release (held : OneAtATime origin now requests holder inFlight) {number : Nat}
    {campaignId : CampaignId} (holds : holder number = some campaignId) :
    OneAtATime origin now requests (Function.update holder number none)
      (inFlight.filter fun other => other ≠ campaignId) := by
  refine held.handOver (held.guarded.release holds) ?_
  intro other taken holdsOther
  rcases KeyedGuard.Guarded.update_eq_some.mp holdsOther with ⟨-, none⟩ | ⟨-, heldOther⟩
  · cases none
  · exact heldOther

/-- A new row of the route is for a campaign that nobody holds, and a new row has no rival
that is unresolved. -/
theorem insert (held : OneAtATime origin now requests holder inFlight) {row : StoredRequest}
    (alone : row.origin = origin → ∀ number, holder number ≠ some row.request.campaignId)
    (unrivalled : ∀ other ∈ requests, Rivals origin other row →
      other.request.campaignId = row.request.campaignId → ¬ other.Unresolved now)
    (proper : row.Proper) : OneAtATime origin now (requests ++ [row]) holder inFlight where
  guarded := held.guarded
  clear number campaignId holds := by
    intro other member ours same
    rcases List.mem_append.mp member with before | new
    · exact held.clear number campaignId holds other before ours same
    · obtain rfl := List.mem_singleton.mp new
      rw [same] at alone
      exact absurd holds (alone ours number)
  single := by
    rw [List.pairwise_append]
    refine ⟨held.single, List.pairwise_singleton .., ?_⟩
    intro other member new isNew
    obtain rfl := List.mem_singleton.mp isNew
    intro rivals same both
    exact unrivalled other member rivals same both.1
  proper other member := by
    rcases List.mem_append.mp member with before | new
    · exact held.proper other before
    · obtain rfl := List.mem_singleton.mp new
      exact proper

end OneAtATime

/-! ## What the conflict check sees -/

namespace FireStore

/-- The requests of the route that are still pending for a campaign are among those that the
service hands to the wiring, and were claimed less than ten minutes ago. -/
def PendingSeen (store : FireStore) (origin : RequestOrigin) (campaignId : CampaignId) : Prop :=
  ∀ row ∈ store.requests, row.origin = origin → row.request.campaignId = campaignId →
    row.Pending → row ∈ store.recentLiveRunRequests 20 ∧ row.Prompt store.clock

variable {store : FireStore} {origin : RequestOrigin} {campaignId : CampaignId}
  {ignored : Option String}

/-- The parts of the conflict check, one after the other. -/
theorem persistentConflict_none (passed : store.persistentConflict campaignId ignored = none) :
    (∀ run ∈ store.runs, run.campaignId = campaignId → run.state.isOpen = false) ∧
    (∀ row ∈ store.unclaimedRequests, row.request.campaignId = campaignId →
      row.request.expiresAt.isSome = true → row.request.isExpired store.clock = true) ∧
    (∀ started ∈ store.startedRequests, started.1.request.campaignId = campaignId →
      started.1.resulted = false → started.2 + holdMs ≤ store.clock) := by
  unfold persistentConflict at passed
  split at passed
  · cases passed
  rename_i noRun
  split at passed
  · cases passed
  split at passed
  · cases passed
  split at passed
  · cases passed
  rename_i noWaiting
  split at passed
  · cases passed
  rename_i noStarted
  refine ⟨?_, ?_, ?_⟩
  · intro run member same
    have closed := List.find?_eq_none.mp noRun run member
    simpa [same] using closed
  · intro row member same dated
    simp only [List.any_eq_true, not_exists, not_and] at noWaiting
    have expired := noWaiting row member
    simpa [same, dated] using expired
  · intro started member same noResult
    have held := List.find?_eq_none.mp noStarted started member
    simpa [same, noResult] using held

/-- When no conflict is found, the campaign is clear. -/
theorem clear_of_persistentConflict (passed : store.persistentConflict campaignId ignored = none)
    (seen : store.PendingSeen origin campaignId) (ours : origin ≠ .elsewhere)
    (proper : ∀ row ∈ store.requests, row.Proper) :
    Clear origin store.clock store.requests campaignId := by
  obtain ⟨noRun, noWaiting, noStarted⟩ := persistentConflict_none passed
  intro row member isOurs same unresolved
  rcases unresolved with ⟨unclaimed, waiting⟩ | pending | ⟨run, hasRun, isOpen⟩
  · have candidate : row ∈ store.unclaimedRequests :=
      List.mem_filter.mpr ⟨member, by simp [unclaimed]⟩
    rw [noWaiting row candidate same ((proper row member).dated (isOurs ▸ ours))] at waiting
    cases waiting
  · obtain ⟨recent, prompt⟩ := seen row member isOurs same pending
    obtain ⟨⟨claimedAt, claimed⟩, noRunYet, noResult⟩ := pending
    have candidate : (row, claimedAt) ∈ store.startedRequests :=
      List.mem_filterMap.mpr ⟨row, recent, by simp [claimed]⟩
    have soon := prompt claimedAt claimed noRunYet noResult
    exact absurd (noStarted _ candidate same noResult) (Int.not_le.mpr soon)
  · have candidate : run ∈ store.runs :=
      List.mem_append.mpr (.inl (List.mem_filterMap.mpr ⟨row, member, hasRun⟩))
    have closed := noRun run candidate (((proper row member).ownRun run hasRun).trans same)
    rw [isOpen] at closed
    cases closed

end FireStore
end MintBot
