import MintBot.Watcher.Accepts

/-!
# Where baselines come from

A baseline is rightful when it is a reading of its wallet, or an accept that was
checked against the date and against a reading of the same tick.  A rightful
baseline stays one through restarts, as long as the loader finds an event that
was adopted before, and no accept is adopted without a reading.
-/

namespace MintBot

open Fallible

section Runs

variable {options : FleetWatcherOptions}

/-- The transaction count of a baseline is that of a judged reading of the wallet,
or of an accept that was not dated in the future and not ahead of a reading of
the same tick. -/
def Adoption.Rightful (state : WatchState) (key : WatchKey) (nonce : Number) : Adoption → Prop
  | .read reading => nonce = reading.nonce ∧ (key, reading) ∈ state.history.readings
  | .accepted event now reading =>
      event.data.nonce = some nonce ∧ event.date ≤ now + futureToleranceMs ∧
        ∃ shown ∈ reading, nonce ≤ (shown.nonce : Number)
  | .loaded _ => False

/-- The adoption is rightful, and the accept it comes from was never reported as
rejected. -/
structure Adoption.Sound (state : WatchState) (key : WatchKey) (nonce : Number)
    (adoption : Adoption) : Prop where
  rightful : adoption.Rightful state key nonce
  unrejected : ∀ event now reading, adoption = .accepted event now reading →
    state.timesReported .acceptRejected event.id = 0
  reported : ∀ event now reading, adoption = .accepted event now reading →
    state.timesReported .baselineAccepted event.id ≠ 0

/-- More readings and adoptions, and no rejection of its accept, leave an adoption
sound. -/
theorem Adoption.Sound.keep {state next : WatchState} {key : WatchKey} {nonce : Number}
    {adoption : Adoption} (sound : adoption.Sound state key nonce)
    (readings : ∀ item ∈ state.history.readings, item ∈ next.history.readings)
    (rejected : ∀ event now reading, adoption = .accepted event now reading →
      next.timesReported .acceptRejected event.id = state.timesReported .acceptRejected event.id)
    (accepted : ∀ eventId, state.timesReported .baselineAccepted eventId ≠ 0 →
      next.timesReported .baselineAccepted eventId ≠ 0) :
    adoption.Sound next key nonce where
  rightful := by
    have rightful := sound.rightful
    cases adoption with
    | read reading => exact ⟨rightful.1, readings _ rightful.2⟩
    | accepted event now reading => exact rightful
    | loaded event => exact rightful
  unrejected := by
    intro event now reading taken
    rw [rejected event now reading taken]
    exact sound.unrejected event now reading taken
  reported := fun event now reading taken =>
    accepted event.id (sound.reported event now reading taken)

/-- More readings, and the same reports about accepts, leave an adoption sound. -/
theorem Adoption.Sound.mono {state next : WatchState} {key : WatchKey} {nonce : Number}
    {adoption : Adoption} (sound : adoption.Sound state key nonce)
    (readings : ∀ item ∈ state.history.readings, item ∈ next.history.readings)
    (reported : ∀ finding eventId,
      next.timesReported finding eventId = state.timesReported finding eventId) :
    adoption.Sound next key nonce :=
  sound.keep readings (fun _ _ _ _ => reported _ _) fun _ taken => by rwa [reported]

theorem Adoption.Sound.read {state : WatchState} {key : WatchKey} {nonce : Number}
    {reading : WalletReading} (judged : (key, reading) ∈ state.history.readings)
    (same : nonce = reading.nonce) : (Adoption.read reading).Sound state key nonce where
  rightful := ⟨same, judged⟩
  unrejected := by
    intro event now shown accepted
    cases accepted
  reported := by
    intro event now shown accepted
    cases accepted

/-- Every baseline in use, and every one that an event hands to the loader, was
adopted soundly. -/
structure SoundBaselines (state : WatchState) : Prop where
  distinct : state.Distinct
  known : ∀ finding eventId, state.timesReported finding eventId ≠ 0 →
    ∃ event ∈ state.events, event.id = eventId
  inUse : ∀ key baseline, state.baselines key = some baseline →
    ∃ adoption, state.history.adoption key = some adoption ∧
      adoption.Sound state key baseline.nonce
  stored : ∀ event ∈ state.events, ∀ adoption,
    state.history.origin event.id = some adoption → ∀ key baseline,
      recordedBaseline key event = some baseline → adoption.Sound state key baseline.nonce
  traced : ∀ event ∈ state.events,
    (event.type = .baseline ∨ state.timesReported .baselineAccepted event.id ≠ 0) →
      state.history.origin event.id ≠ none

theorem SoundBaselines.initial : SoundBaselines .initial where
  distinct := List.nodup_nil
  known := fun _ _ taken => absurd rfl taken
  inUse := by
    intro key baseline inUse
    cases inUse
  stored := by
    intro event member
    cases member
  traced := by
    intro event member
    cases member

/-- For every watched wallet the loader finds a baseline event, or an accept that was adopted. -/
def Vouched (options : FleetWatcherOptions) (state : WatchState) : Prop :=
  ∀ key ∈ options.targets.map keyOf, ∀ event, loaderEvent state.events key = some event →
    event.type = .baseline ∨ state.timesReported .baselineAccepted event.id ≠ 0

/-! ## The pieces of a tick -/

theorem recordedBaseline_data {target : WatchTarget} {baseline recorded : WalletBaseline}
    {key : WatchKey} {event : WatchEvent} (data : event.data = baseline.data (keyOf target))
    (found : recordedBaseline key event = some recorded) :
    key = keyOf target ∧ recorded.nonce = baseline.nonce := by
  simp only [recordedBaseline, data, WalletBaseline.data, Option.bind_eq_bind, Option.bind_some,
    toLowerCase_keyOf, Option.ite_none_right_eq_some, Option.some.injEq] at found
  obtain ⟨⟨-, same⟩, rfl⟩ := found
  exact ⟨same.symm, rfl⟩

theorem recordedBaseline_type {key : WatchKey} {event : WatchEvent} {baseline : WalletBaseline}
    (found : recordedBaseline key event = some baseline) :
    event.type = .baseline ∨ event.type = .accept := by
  simp only [recordedBaseline, bind, Option.bind_eq_some_iff,
    Option.ite_none_right_eq_some] at found
  obtain ⟨-, -, -, -, -, -, -, -, ⟨type, -⟩, -⟩ := found
  exact type

theorem recordedBaseline_nonce {key : WatchKey} {event : WatchEvent} {baseline : WalletBaseline}
    (found : recordedBaseline key event = some baseline) :
    event.data.nonce = some baseline.nonce := by
  simp only [recordedBaseline, bind, Option.bind_eq_some_iff, Option.ite_none_right_eq_some,
    Option.some.injEq] at found
  obtain ⟨-, -, -, -, nonce, isNonce, -, -, -, rfl⟩ := found
  exact isNonce

namespace SoundBaselines

variable {state next : WatchState}

/-- An event is written whose baseline, if it hands one to the loader, was adopted
soundly. -/
theorem push (sound : SoundBaselines state) {event : WatchEvent} {adoption : Option Adoption}
    (unused : state.Unused event.id)
    (handed : ∀ known ∈ adoption, ∀ key baseline, recordedBaseline key event = some baseline →
      known.Sound state key baseline.nonce)
    (named : event.type = .baseline → adoption ≠ none) :
    SoundBaselines (state.push event adoption) where
  distinct := sound.distinct.push unused adoption
  known := by
    intro finding eventId taken
    obtain ⟨stored, member, same⟩ := sound.known finding eventId taken
    exact ⟨stored, List.mem_append_left _ member, same⟩
  inUse := by
    intro key baseline inUse
    obtain ⟨known, adopted, good⟩ := sound.inUse key baseline inUse
    exact ⟨known, adopted, good.mono (fun _ => id) fun _ _ => rfl⟩
  stored := by
    intro stored member known origin key baseline recorded
    rcases List.mem_append.mp member with old | new
    · have same : (state.push event adoption).history.origin stored.id =
          state.history.origin stored.id := Function.update_of_ne (unused stored old) _ _
      rw [same] at origin
      exact (sound.stored stored old known origin key baseline recorded).mono (fun _ => id)
        fun _ _ => rfl
    · rw [List.mem_singleton.mp new] at origin recorded
      have same : (state.push event adoption).history.origin event.id = adoption :=
        Function.update_self _ _ _
      rw [same] at origin
      exact (handed known origin key baseline recorded).mono (fun _ => id) fun _ _ => rfl
  traced := by
    intro stored member cause
    rcases List.mem_append.mp member with old | new
    · have same : (state.push event adoption).history.origin stored.id =
          state.history.origin stored.id := Function.update_of_ne (unused stored old) _ _
      rw [same]
      exact sound.traced stored old cause
    · rw [List.mem_singleton.mp new] at cause ⊢
      have same : (state.push event adoption).history.origin event.id = adoption :=
        Function.update_self _ _ _
      rw [same]
      rcases cause with type | taken
      · exact named type
      · obtain ⟨reported, member, sameId⟩ := sound.known _ _ taken
        exact absurd sameId (unused reported member)

/-- Reports that are not about accepts, and changes of other fields. -/
theorem of_same (sound : SoundBaselines state) (events : next.events = state.events)
    (baselines : next.baselines = state.baselines)
    (adoption : next.history.adoption = state.history.adoption)
    (origin : next.history.origin = state.history.origin)
    (readings : ∀ item ∈ state.history.readings, item ∈ next.history.readings)
    (reported : ∀ finding eventId,
      next.timesReported finding eventId = state.timesReported finding eventId) :
    SoundBaselines next where
  distinct := by
    unfold WatchState.Distinct
    rw [events]
    exact sound.distinct
  known := by
    intro finding eventId
    rw [reported, events]
    exact sound.known finding eventId
  inUse := by
    intro key baseline inUse
    rw [baselines] at inUse
    rw [adoption]
    obtain ⟨known, adopted, good⟩ := sound.inUse key baseline inUse
    exact ⟨known, adopted, good.mono readings reported⟩
  stored := by
    intro event member known isOrigin key baseline recorded
    rw [events] at member
    rw [origin] at isOrigin
    exact (sound.stored event member known isOrigin key baseline recorded).mono readings reported
  traced := by
    intro event member cause
    rw [events] at member
    rw [reported] at cause
    rw [origin]
    exact sound.traced event member cause

/-- A baseline of a wallet is replaced by one that was adopted soundly. -/
theorem replace (sound : SoundBaselines state) {key : WatchKey} {baseline : WalletBaseline}
    {adoption : Adoption} (good : adoption.Sound state key baseline.nonce) :
    SoundBaselines (state.adopt key baseline adoption) where
  distinct := sound.distinct
  known := sound.known
  inUse := by
    intro other known inUse
    by_cases same : other = key
    · subst same
      have isBaseline : (state.adopt other baseline adoption).baselines other = some baseline :=
        Function.update_self _ _ _
      rw [isBaseline] at inUse
      obtain rfl := Option.some.inj inUse
      exact ⟨adoption, Function.update_self _ _ _, good.mono (fun _ => id) fun _ _ => rfl⟩
    · have kept : (state.adopt key baseline adoption).baselines other = state.baselines other :=
        Function.update_of_ne same _ _
      have keptAdoption : (state.adopt key baseline adoption).history.adoption other =
          state.history.adoption other := Function.update_of_ne same _ _
      rw [kept] at inUse
      rw [keptAdoption]
      obtain ⟨known, adopted, good⟩ := sound.inUse other known inUse
      exact ⟨known, adopted, good.mono (fun _ => id) fun _ _ => rfl⟩
  stored := by
    intro event member known origin other recordedNonce recorded
    exact (sound.stored event member known origin other recordedNonce recorded).mono
      (fun _ => id) fun _ _ => rfl
  traced := sound.traced

/-- The pieces of a tick leave the baselines sound. -/
theorem pieces {target : WatchTarget} (sound : SoundBaselines state)
    (pieces : Pieces target state next) :
    SoundBaselines next := by
  induction pieces with
  | refl => exact sound
  | scratch _ events baselines watermark history reports inductionHypothesis =>
      refine inductionHypothesis.of_same events baselines (by rw [history]) (by rw [history])
        (by simp [history]) ?_
      intro finding eventId
      rw [WatchState.timesReported, reports]
      rfl
  | report _ other inductionHypothesis =>
      exact inductionHypothesis.of_same rfl rfl rfl rfl (fun _ => id)
        (timesReported_report_other other)
  | note _ unused type inductionHypothesis =>
      refine inductionHypothesis.push unused ?_ (fun isBaseline => absurd isBaseline type.1)
      intro known none
      cases none
  | record _ inUse unused recorded inductionHypothesis =>
      obtain ⟨adoption, adopted, good⟩ := inductionHypothesis.inUse _ _ inUse
      refine inductionHypothesis.push unused ?_ fun _ => by simp [adopted]
      intro known isAdoption key baseline found
      obtain ⟨rfl, nonce⟩ := recordedBaseline_data recorded found
      rw [adopted, Option.mem_some] at isAdoption
      rw [nonce, ← isAdoption]
      exact good
  | observe _ key reading inductionHypothesis =>
      refine inductionHypothesis.of_same rfl rfl rfl rfl ?_ fun _ _ => rfl
      intro item member
      exact List.mem_append_left _ member
  | adopt _ judged nonce inductionHypothesis =>
      exact inductionHypothesis.replace (.read judged nonce)
  | @excess middle _ baseline inUse after inductionHypothesis =>
      obtain ⟨adoption, adopted, good⟩ := inductionHypothesis.inUse _ _ inUse
      have replaced : SoundBaselines
          (middle.adopt (keyOf target) { baseline with excess := after } adoption) :=
        inductionHypothesis.replace good
      refine replaced.of_same rfl rfl ?_ rfl (fun _ => id) fun _ _ => rfl
      exact (Function.update_eq_self_iff.mpr adopted.symm).symm

/-! ## Restarts and the loader -/

theorem restart (sound : SoundBaselines state) :
    SoundBaselines (.opened state.events state.reports state.history) where
  distinct := sound.distinct
  known := sound.known
  inUse := by
    intro key baseline inUse
    cases inUse
  stored := by
    intro event member known origin key baseline recorded
    exact (sound.stored event member known origin key baseline recorded).mono (fun _ => id)
      fun _ _ => rfl
  traced := sound.traced

theorem load (sound : SoundBaselines state)
    (vouched : state.loaded = false → Vouched options state) :
    SoundBaselines (load options state) := by
  unfold MintBot.load
  split
  · exact sound
  next fresh =>
    refine ⟨sound.distinct, sound.known, ?_, ?_, sound.traced⟩
    · intro key baseline inUse
      dsimp only at inUse ⊢
      split at inUse
      next event source =>
        have loads : loaderEvent state.events key = some event ∧
            key ∈ options.targets.map keyOf := by
          split at source
          next wanted => exact ⟨source, wanted.2⟩
          next => cases source
        have member : event ∈ state.events :=
          List.mem_reverse.mp (List.mem_of_find?_eq_some loads.1)
        have traced := sound.traced event member
          (vouched (by simpa using fresh) key loads.2 event loads.1)
        obtain ⟨adoption, origin⟩ := Option.ne_none_iff_exists'.mp traced
        refine ⟨adoption, ?_, ?_⟩
        · simp [origin]
        · exact (sound.stored event member adoption origin key baseline inUse).mono (fun _ => id)
            fun _ _ => rfl
      next =>
        obtain ⟨known, adopted, good⟩ := sound.inUse key baseline inUse
        exact ⟨known, adopted, good.mono (fun _ => id) fun _ _ => rfl⟩
    · intro event member known origin key baseline recorded
      exact (sound.stored event member known origin key baseline recorded).mono (fun _ => id)
        fun _ _ => rfl

end SoundBaselines

/-! ## The accept scan -/

/-- An accept that is not refused has a reading beside it and was not rejected
before; one that is refused was not adopted before. -/
def FoundAccept.Checked (accept : FoundAccept) (state : WatchState) : Prop :=
  if accept.Refused state.now (state.reading (keyOf accept.target)) then
    state.timesReported .baselineAccepted accept.event.id = 0
  else state.reading (keyOf accept.target) ≠ none ∧
    state.timesReported .acceptRejected accept.event.id = 0

instance (accept : FoundAccept) (state : WatchState) : Decidable (accept.Checked state) := by
  unfold FoundAccept.Checked
  infer_instance

theorem foundAccept_nonce {event : WatchEvent} {accept : FoundAccept}
    (found : foundAccept options event = some accept) :
    accept.event.data.nonce = some accept.nonce := by
  simp only [foundAccept, bind, Option.bind_eq_some_iff, Option.ite_none_right_eq_some,
    Option.some.injEq] at found
  obtain ⟨-, -, -, -, nonce, isNonce, -, -, -, -, -, rfl⟩ := found
  exact isNonce

variable {state : WatchState} {accept : FoundAccept}

theorem SoundBaselines.reject (sound : SoundBaselines state) (stands : accept.event ∈ state.events)
    (unadopted : state.timesReported .baselineAccepted accept.event.id = 0) :
    SoundBaselines (state.report (accept.report .acceptRejected)) := by
  have same : ∀ eventId, (state.report (accept.report .acceptRejected)).timesReported
      .baselineAccepted eventId = state.timesReported .baselineAccepted eventId := by
    intro eventId
    simp [timesReported_report]
  have keeps {key : WatchKey} {nonce : Number} {adoption : Adoption}
      (good : adoption.Sound state key nonce) :
      adoption.Sound (state.report (accept.report .acceptRejected)) key nonce := by
    refine good.keep (fun _ => id) ?_ fun eventId taken => by rwa [same]
    intro event now reading taken
    have differ : accept.event.id ≠ event.id := by
      intro sameId
      exact good.reported event now reading taken (sameId ▸ unadopted)
    rw [timesReported_report, if_neg (by simp [differ]), Nat.add_zero]
  refine ⟨sound.distinct, ?_, ?_, ?_, ?_⟩
  · intro finding eventId taken
    by_cases sameId : accept.event.id = eventId
    · exact ⟨accept.event, stands, sameId⟩
    · rw [timesReported_report, if_neg (by simp [sameId]), Nat.add_zero] at taken
      exact sound.known finding eventId taken
  · intro key baseline inUse
    obtain ⟨known, adopted, good⟩ := sound.inUse key baseline inUse
    exact ⟨known, adopted, keeps good⟩
  · intro event member known origin key baseline recorded
    exact keeps (sound.stored event member known origin key baseline recorded)
  · intro event member cause
    rw [same] at cause
    exact sound.traced event member cause

theorem SoundBaselines.adopt (sound : SoundBaselines state) (stands : accept.event ∈ state.events)
    (nonce : accept.event.data.nonce = some accept.nonce)
    (accepted : ¬ accept.Refused state.now (state.reading (keyOf accept.target)))
    (read : state.reading (keyOf accept.target) ≠ none)
    (unrejected : state.timesReported .acceptRejected accept.event.id = 0) :
    SoundBaselines (adoptAccept state accept) := by
  have counted : ∀ finding eventId, (adoptAccept state accept).timesReported finding eventId =
      state.timesReported finding eventId +
        if .baselineAccepted = finding ∧ accept.event.id = eventId then 1 else 0 :=
    fun finding eventId => timesReported_report _ accept .baselineAccepted finding eventId
  have keeps {key : WatchKey} {nonce : Number} {adoption : Adoption}
      (good : adoption.Sound state key nonce) :
      adoption.Sound (adoptAccept state accept) key nonce := by
    refine good.keep (fun _ => id) ?_ ?_
    · intro event now reading _
      rw [counted, if_neg (by simp), Nat.add_zero]
    · intro eventId taken
      rw [counted]
      omega
  have good {key : WatchKey} : (Adoption.accepted accept.event state.now
      (state.reading (keyOf accept.target))).Sound (adoptAccept state accept) key accept.nonce := by
    obtain ⟨shown, isShown⟩ := Option.ne_none_iff_exists'.mp read
    refine ⟨⟨nonce, ?_, shown, isShown, ?_⟩, ?_, ?_⟩
    · exact not_lt.mp fun future => accepted (Or.inl future)
    · exact not_lt.mp fun ahead => accepted (Or.inr (Or.inl ⟨shown, isShown, ahead⟩))
    · rintro event now reading ⟨⟩
      rw [counted, unrejected, if_neg (by simp)]
    · rintro event now reading ⟨⟩
      rw [counted, if_pos ⟨rfl, rfl⟩]
      omega
  have origins : (adoptAccept state accept).history.origin = Function.update state.history.origin
      accept.event.id (some (.accepted accept.event state.now
        (state.reading (keyOf accept.target)))) := rfl
  refine ⟨sound.distinct, ?_, ?_, ?_, ?_⟩
  · intro finding eventId taken
    by_cases sameId : accept.event.id = eventId
    · exact ⟨accept.event, stands, sameId⟩
    · rw [counted, if_neg (by simp [sameId]), Nat.add_zero] at taken
      exact sound.known finding eventId taken
  · intro key baseline inUse
    by_cases same : key = keyOf accept.target
    · subst same
      have isBaseline : (adoptAccept state accept).baselines (keyOf accept.target) =
          some accept.baseline := Function.update_self _ _ _
      rw [isBaseline] at inUse
      obtain rfl := Option.some.inj inUse
      exact ⟨_, Function.update_self _ _ _, good⟩
    · have kept : (adoptAccept state accept).baselines key = state.baselines key :=
        Function.update_of_ne same _ _
      have keptAdoption : (adoptAccept state accept).history.adoption key =
          state.history.adoption key := Function.update_of_ne same _ _
      rw [kept] at inUse
      rw [keptAdoption]
      obtain ⟨known, adopted, sound⟩ := sound.inUse key baseline inUse
      exact ⟨known, adopted, keeps sound⟩
  · intro event member known origin key baseline recorded
    rw [origins] at origin
    by_cases sameId : event.id = accept.event.id
    · obtain rfl := List.inj_on_of_nodup_map sound.distinct member stands sameId
      rw [Function.update_self] at origin
      obtain rfl := Option.some.inj origin
      have sameNonce := nonce.symm.trans (recordedBaseline_nonce recorded)
      rw [← Option.some.inj sameNonce]
      exact good
    · rw [Function.update_of_ne sameId] at origin
      exact keeps (sound.stored event member known origin key baseline recorded)
  · intro event member cause
    rw [origins]
    by_cases sameId : event.id = accept.event.id
    · rw [sameId, Function.update_self]
      simp
    · rw [Function.update_of_ne sameId]
      rw [counted, if_neg (by simp [Ne.symm sameId]), Nat.add_zero] at cause
      exact sound.traced event member cause

theorem SoundBaselines.takeAccept (sound : SoundBaselines state)
    (stands : accept.event ∈ state.events) (nonce : accept.event.data.nonce = some accept.nonce)
    (checked : accept.Due state → accept.Checked state) :
    SoundBaselines (takeAccept state accept) := by
  unfold MintBot.takeAccept
  split
  · exact sound
  next due =>
    have checked := checked (not_not.mp due)
    unfold FoundAccept.Checked at checked
    split
    next refused =>
      rw [if_pos refused] at checked
      exact sound.reject stands checked
    next accepted =>
      rw [if_neg accepted] at checked
      exact sound.adopt stands nonce accepted checked.1 checked.2

/-- An accept that is due after another one was taken in was due before. -/
theorem due_of_takeAccept {other : FoundAccept} (due : other.Due (takeAccept state accept)) :
    other.Due state := by
  unfold takeAccept at due
  split at due
  · exact due
  next acceptDue =>
    split at due
    · exact due
    · by_cases same : keyOf other.target = keyOf accept.target
      · have adopted : (adoptAccept state accept).baselines (keyOf other.target) =
            some accept.baseline := by
          rw [same]
          exact Function.update_self _ _ _
        intro known inUse
        rw [same] at inUse
        have acceptLater := not_not.mp acceptDue known inUse
        have otherLater := due accept.baseline adopted
        exact acceptLater.trans otherLater
      · have kept : (adoptAccept state accept).baselines (keyOf other.target) =
            state.baselines (keyOf other.target) := Function.update_of_ne same _ _
        intro known inUse
        exact due known (kept ▸ inUse)

theorem SoundBaselines.foldl_takeAccept {accepts : List FoundAccept} (sound : SoundBaselines state)
    (distinct : (accepts.map fun accept => accept.event.id).Nodup)
    (stand : ∀ accept ∈ accepts, accept.event ∈ state.events)
    (nonces : ∀ accept ∈ accepts, accept.event.data.nonce = some accept.nonce)
    (checked : ∀ accept ∈ accepts, accept.Due state → accept.Checked state) :
    SoundBaselines (accepts.foldl MintBot.takeAccept state) := by
  induction accepts generalizing state with
  | nil => exact sound
  | cons first rest inductionHypothesis =>
      rw [List.map_cons, List.nodup_cons, List.mem_map] at distinct
      have scanned := takeAccept_scanned state first
      refine inductionHypothesis (sound.takeAccept (stand first (by simp))
        (nonces first (by simp)) (checked first (by simp))) distinct.2 ?_ ?_ ?_
      · intro accept member
        rw [scanned.events]
        exact stand accept (by simp [member])
      · exact fun accept member => nonces accept (by simp [member])
      · intro accept member due
        have differ : first.event.id ≠ accept.event.id :=
          fun same => distinct.1 ⟨accept, member, same.symm⟩
        obtain ⟨reported, -⟩ := @takeAccept_other state first accept.event.id differ
        have before := checked accept (by simp [member]) (due_of_takeAccept due)
        unfold FoundAccept.Checked at before ⊢
        rw [scanned.now, scanned.reading, reported, reported]
        exact before

theorem SoundBaselines.syncAccepts (sound : SoundBaselines state)
    (checked : ∀ accept ∈ state.foundAccepts options, accept.Due state → accept.Checked state) :
    SoundBaselines (syncAccepts options state) := by
  have started : SoundBaselines { state with
      lastAcceptSyncAt := nextWatermark state.now state.lastAcceptSyncAt
        (unseenEvents state.lastAcceptSyncAt state.events)
      history := { state.history with synced := state.events.length } } :=
    sound.of_same rfl rfl rfl rfl (fun _ => id) fun _ _ => rfl
  have sublist := @foundAccepts_sublist options state
  refine started.foldl_takeAccept ?_ ?_ ?_ checked
  · have distinct := sound.distinct.sublist (sublist.map WatchEvent.id)
    rwa [List.map_map] at distinct
  · exact fun accept member => sublist.subset (List.mem_map_of_mem member)
  · intro accept member
    obtain ⟨event, -, found⟩ := List.mem_filterMap.mp member
    exact foundAccept_nonce found

/-! ## Runs -/

/-- Other processes append no baseline events.  A fresh process loads baselines
that were adopted before; an accept is adopted beside a reading only; and what was
adopted or rejected once is not rejected or adopted later. -/
def AcceptsChecked (options : FleetWatcherOptions) (state : WatchState) (command : WatchCommand) :
    Prop :=
  match command with
  | .commit event => event.type ≠ .baseline
  | .openTick _ _ => state.loaded = false → Vouched options state
  | .syncAccepts =>
      ∀ accept ∈ state.foundAccepts options, accept.Due state → accept.Checked state
  | _ => True

/-- In every state of such a run, the baseline in use of every wallet was adopted
as a judged reading of it, or as an accept within the tolerance for the future and
not ahead of a reading of the same tick, and it is no accept that was ever
rejected. -/
theorem baselines_rightful {state : WatchState}
    (run : Machine.Reaches (watchStep options) (AcceptsChecked options) .initial state) :
    ∀ key baseline, state.baselines key = some baseline →
      ∃ adoption, state.history.adoption key = some adoption ∧
        adoption.Rightful state key baseline.nonce ∧
        ∀ event now reading, adoption = .accepted event now reading →
          state.timesReported .acceptRejected event.id = 0 := by
  have sound : SoundBaselines state := by
    refine run.invariant .initial ?_
    intro state command next sound checked stepped
    cases command with
    | commit event =>
        simp only [watchStep, bind_eq_ok, refuse_eq_ok, pure_eq_ok, not_not] at stepped
        obtain ⟨-, unused, rfl⟩ := stepped
        refine sound.push unused ?_ fun isBaseline => absurd isBaseline checked
        intro known none
        cases none
    | restart =>
        cases stepped
        exact sound.restart
    | openTick now answers =>
        cases stepped
        exact (sound.load checked).pieces (openTick_pieces options state ⟨.ethereum, ""⟩ now answers)
    | syncAccepts =>
        cases stepped
        exact sound.syncAccepts checked
    | judgeAndAct records target reading answers =>
        simp only [watchStep, bind_eq_ok, refuse_eq_ok] at stepped
        obtain ⟨-, -, stepped⟩ := stepped
        exact sound.pieces (judgeAndAct_pieces options stepped)
    | trackExcess target after write =>
        cases stepped
        exact sound.pieces (trackExcess_pieces target after write)
  intro key baseline inUse
  obtain ⟨adoption, adopted, good⟩ := sound.inUse key baseline inUse
  exact ⟨adoption, adopted, good.rightful, good.unrejected⟩

end Runs

/-! ## Examples -/

namespace WatchSample

/-- The second tick of the sample takes the accept in, with the given answer for
the wallet. -/
def secondTick (answer : Option WalletReading) : List WatchCommand :=
  [.openTick 100 [some reading], .syncAccepts,
    .judgeAndAct records target reading (answers "evt_1" 100),
    .commit (accept 150), .openTick 160 [answer], .syncAccepts]

/-- A fresh process opens its first tick on the same store. -/
def afterRestart : List WatchCommand :=
  secondTick (some reading) ++ [.restart, .openTick 200 [some reading]]

def afterRun (commands : List WatchCommand) : WatchState :=
  Machine.applyAll (watchStep options) .initial commands

end WatchSample

/-- An accept that is ahead of the chain is rejected, and a fresh process has it
as its baseline; and an accept is adopted in a tick that could not read its
wallet. -/
theorem rejected_accept_in_use :
    ((WatchSample.afterRun WatchSample.afterRestart).baselines (keyOf WatchSample.target) =
        some ⟨6, "900", 150, none⟩ ∧
      (WatchSample.afterRun WatchSample.afterRestart).timesReported .acceptRejected "evt_accept" =
        1 ∧
      (WatchSample.afterRun WatchSample.afterRestart).reading (keyOf WatchSample.target) =
        some ⟨5, 1000⟩) ∧
    (WatchSample.afterRun (WatchSample.secondTick none)).baselines (keyOf WatchSample.target) =
        some ⟨6, "900", 150, none⟩ ∧
      (WatchSample.afterRun (WatchSample.secondTick none)).reading (keyOf WatchSample.target) =
        none := by
  decide +kernel

namespace WatchSample

theorem checkedRun :
    Machine.Reaches (watchStep options) (AcceptsChecked options) .initial
      (afterRun (secondTick (some ⟨6, 900⟩))) := by
  refine (Machine.Reaches.refl _).applyAll ⟨?_, ?_, trivial, ?_, ?_, ?_, trivial⟩
  · intro _ key _ event found
    cases found
  · show ∀ accept ∈ WatchState.foundAccepts _ _, _
    decide +kernel
  · show (accept 150).type ≠ .baseline
    decide
  · intro unloaded
    cases unloaded
  · show ∀ accept ∈ WatchState.foundAccepts _ _, _
    decide +kernel

end WatchSample

/-- With a reading that bears the accept out, the baseline is rightful. -/
theorem baselines_rightful_sample :
    ∃ adoption, (WatchSample.afterRun (WatchSample.secondTick (some ⟨6, 900⟩))).history.adoption
        (keyOf WatchSample.target) = some adoption ∧
      adoption.Rightful (WatchSample.afterRun (WatchSample.secondTick (some ⟨6, 900⟩)))
        (keyOf WatchSample.target) 6 ∧
      ∀ event now reading, adoption = .accepted event now reading →
        (WatchSample.afterRun (WatchSample.secondTick (some ⟨6, 900⟩))).timesReported
          .acceptRejected event.id = 0 :=
  baselines_rightful WatchSample.checkedRun _ ⟨6, "900", 150, none⟩ (by decide +kernel)

end MintBot
