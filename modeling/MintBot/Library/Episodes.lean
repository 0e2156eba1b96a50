import Mathlib.Data.List.DropRight
import Mathlib.Data.List.Nodup
import Mathlib.Tactic.Common

/-!
# Episodes of a trouble

A watcher reads from time to time whether a trouble is there, and how bad it is.
What it reports falls into episodes: an episode is opened at the first reading
with the trouble, is called critical once, is repeated when nothing was reported
for some time, and is closed at the first reading without the trouble.

`Due` says what has to be reported at a reading, by the reports of the open
episode alone.  A `Tracker` remembers of that episode what decides it.
-/

namespace Episodes

inductive Severity
  | attention
  | critical
  deriving DecidableEq, Repr

inductive Stage
  | opened
  | critical
  | reminder (number : Nat)
  | recovered
  deriving DecidableEq, Repr

/-- The first report of an episode. -/
def Severity.stage : Severity → Stage
  | attention => .opened
  | critical => .critical

structure Reading where
  now : Int
  active : Option Severity

structure Report (ι : Type*) where
  id : ι
  stage : Stage
  sentAt : Int
  deriving DecidableEq

variable {ι : Type*}

/-- The reports since the last recovery. -/
def openEpisode (reports : List (Report ι)) : List (Report ι) :=
  reports.rtakeWhile fun report => report.stage ≠ .recovered

def Report.isReminder (report : Report ι) : Bool :=
  match report.stage with
  | .reminder _ => true
  | _ => false

/-! ## What has to be reported -/

/-- The report that is due at a reading, after the reports of the open episode. -/
inductive Due (name : Int → ι) (reminderMs : Int) (episode : List (Report ι)) (reading : Reading) :
    Report ι → Prop
  | opens {severity : Severity} (closed : episode = []) (active : reading.active = some severity) :
      Due name reminderMs episode reading ⟨name reading.now, severity.stage, reading.now⟩
  | escalates {first : Report ι} (begun : episode.head? = some first)
      (active : reading.active = some .critical)
      (mild : ∀ report ∈ episode, report.stage ≠ .critical) :
      Due name reminderMs episode reading ⟨first.id, .critical, reading.now⟩
  | reminds {first last : Report ι} {severity : Severity} (begun : episode.head? = some first)
      (newest : episode.getLast? = some last) (active : reading.active = some severity)
      (known : severity = .critical → ∃ report ∈ episode, report.stage = .critical)
      (late : reminderMs ≤ reading.now - last.sentAt) :
      Due name reminderMs episode reading
        ⟨first.id, .reminder (episode.countP Report.isReminder + 1), reading.now⟩
  | recovers {first : Report ι} (begun : episode.head? = some first)
      (inactive : reading.active = none) :
      Due name reminderMs episode reading ⟨first.id, .recovered, reading.now⟩

/-- The reports of an episode that is not over, with the number of reminders and the worst
severity so far. -/
inductive Running (reminderMs : Int) (id : ι) : List (Report ι) → Nat → Severity → Prop
  | opened (severity : Severity) (now : Int) :
      Running reminderMs id [⟨id, severity.stage, now⟩] 0 severity
  | escalated {reports : List (Report ι)} {reminders : Nat} (now : Int)
      (running : Running reminderMs id reports reminders .attention) :
      Running reminderMs id (reports ++ [⟨id, .critical, now⟩]) reminders .critical
  | reminded {reports : List (Report ι)} {reminders : Nat} {severity : Severity}
      {last : Report ι} (now : Int) (running : Running reminderMs id reports reminders severity)
      (newest : reports.getLast? = some last) (late : reminderMs ≤ now - last.sentAt) :
      Running reminderMs id (reports ++ [⟨id, .reminder (reminders + 1), now⟩]) (reminders + 1)
        severity

/-- The reports of an episode that is over. -/
def Closed (reminderMs : Int) (episode : List (Report ι)) : Prop :=
  ∃ id reports reminders severity now, Running reminderMs id reports reminders severity ∧
    episode = reports ++ [⟨id, .recovered, now⟩]

/-- The reports are closed episodes, one after the other, and at most one open one. -/
def InEpisodes (reminderMs : Int) (reports : List (Report ι)) : Prop :=
  ∃ closed : List (List (Report ι)), ∃ last : List (Report ι), reports = closed.flatten ++ last ∧
    (∀ episode ∈ closed, Closed reminderMs episode) ∧
      (last = [] ∨ ∃ id reminders severity, Running reminderMs id last reminders severity)

/-! ## The tracker -/

/-- What a watcher remembers of the open episode. -/
structure Tracker (ι : Type*) where
  id : ι
  severity : Severity
  lastSentAt : Int
  reminders : Nat

/-- One reading: what is remembered afterwards, and what is reported. -/
def step (name : Int → ι) (reminderMs : Int) (reading : Reading) :
    Option (Tracker ι) → Option (Tracker ι) × Option (Report ι)
  | none =>
      match reading.active with
      | some severity =>
          (some ⟨name reading.now, severity, reading.now, 0⟩,
            some ⟨name reading.now, severity.stage, reading.now⟩)
      | none => (none, none)
  | some tracker =>
      match reading.active with
      | some severity =>
          if severity = .critical ∧ tracker.severity = .attention then
            (some { tracker with severity := .critical, lastSentAt := reading.now },
              some ⟨tracker.id, .critical, reading.now⟩)
          else if reminderMs ≤ reading.now - tracker.lastSentAt then
            (some { tracker with
                lastSentAt := reading.now
                reminders := tracker.reminders + 1 },
              some ⟨tracker.id, .reminder (tracker.reminders + 1), reading.now⟩)
          else (some tracker, none)
      | none => (none, some ⟨tracker.id, .recovered, reading.now⟩)

/-- Only an open episode is closed, and only without the trouble. -/
theorem step_recovered {name : Int → ι} {reminderMs : Int} {reading : Reading}
    {tracker : Option (Tracker ι)} {report : Report ι}
    (sent : report ∈ (step name reminderMs reading tracker).2)
    (recovers : report.stage = .recovered) :
    tracker.isSome ∧ reading.active = none := by
  cases tracker with
  | none =>
      cases active : reading.active with
      | none => simp [step, active] at sent
      | some severity =>
          obtain rfl : _ = report := by simpa [step, active] using sent
          cases severity <;> cases recovers
  | some tracker =>
      refine ⟨rfl, ?_⟩
      cases active : reading.active with
      | none => rfl
      | some severity =>
          simp only [step, active] at sent
          split at sent
          · obtain rfl := Option.some.inj sent
            cases recovers
          · split at sent
            · obtain rfl := Option.some.inj sent
              cases recovers
            · cases sent

namespace Running

variable {reminderMs : Int} {id : ι} {reports : List (Report ι)} {reminders : Nat}
  {severity : Severity}

theorem head (running : Running reminderMs id reports reminders severity) :
    ∃ first, reports.head? = some first ∧ first.id = id := by
  induction running with
  | opened => exact ⟨_, rfl, rfl⟩
  | escalated now running inductionHypothesis =>
      obtain ⟨first, begun, same⟩ := inductionHypothesis
      exact ⟨first, by rw [List.head?_append, begun, Option.some_or], same⟩
  | reminded now running newest late inductionHypothesis =>
      obtain ⟨first, begun, same⟩ := inductionHypothesis
      exact ⟨first, by rw [List.head?_append, begun, Option.some_or], same⟩

theorem ids (running : Running reminderMs id reports reminders severity) :
    ∀ report ∈ reports, report.id = id := by
  induction running with
  | opened => simp
  | escalated now running inductionHypothesis =>
      exact List.forall_mem_append.mpr ⟨inductionHypothesis, by simp⟩
  | reminded now running newest late inductionHypothesis =>
      exact List.forall_mem_append.mpr ⟨inductionHypothesis, by simp⟩

theorem count (running : Running reminderMs id reports reminders severity) :
    reports.countP Report.isReminder = reminders := by
  induction running with
  | opened severity => cases severity <;> rfl
  | escalated now running inductionHypothesis =>
      rw [List.countP_append, inductionHypothesis]
      rfl
  | reminded now running newest late inductionHypothesis =>
      rw [List.countP_append, inductionHypothesis]
      rfl

/-- The episode is critical when it was reported as critical. -/
theorem critical_iff (running : Running reminderMs id reports reminders severity) :
    (∃ report ∈ reports, report.stage = .critical) ↔ severity = .critical := by
  induction running with
  | opened severity => cases severity <;> simp [Severity.stage]
  | escalated => simp
  | reminded now running newest late inductionHypothesis =>
      simpa using inductionHypothesis

/-- The stages that an episode has used up. -/
theorem stages (running : Running reminderMs id reports reminders severity) :
    ∀ report ∈ reports, report.stage ≠ .recovered ∧
      ∀ number, report.stage = .reminder number → number ≤ reminders := by
  induction running with
  | opened severity => cases severity <;> simp [Severity.stage]
  | escalated now running inductionHypothesis =>
      exact List.forall_mem_append.mpr ⟨inductionHypothesis, by simp⟩
  | reminded now running newest late inductionHypothesis =>
      refine List.forall_mem_append.mpr ⟨fun report member => ?_, by simp⟩
      obtain ⟨running, numbers⟩ := inductionHypothesis report member
      exact ⟨running, fun number same => (numbers number same).trans (Nat.le_succ _)⟩

end Running

/-! ## The tracker remembers enough -/

/-- What the tracker says about the reports of the closed episodes and of the open one. -/
inductive Tracks (reminderMs : Int) (closed : List (List (Report ι))) :
    List (Report ι) → Option (Tracker ι) → Prop
  | idle : Tracks reminderMs closed [] none
  | running {last : List (Report ι)} {newest : Report ι} {tracker : Tracker ι}
      (running : Running reminderMs tracker.id last tracker.reminders tracker.severity)
      (latest : last.getLast? = some newest) (sentAt : newest.sentAt = tracker.lastSentAt)
      (apart : ∀ report ∈ closed.flatten, report.id ≠ tracker.id) :
      Tracks reminderMs closed last (some tracker)

theorem openEpisode_append {reports : List (Report ι)}
    (running : ∀ report ∈ reports, report.stage ≠ .recovered) (past : List (Report ι)) :
    openEpisode (past ++ reports) = openEpisode past ++ reports := by
  induction reports using List.reverseRecOn with
  | nil => rw [List.append_nil, List.append_nil]
  | append_singleton reports report inductionHypothesis =>
      obtain ⟨others, this⟩ := List.forall_mem_append.mp running
      have unclosed : report.stage ≠ .recovered := this report (by simp)
      rw [← List.append_assoc, openEpisode, List.rtakeWhile_concat_pos _ _ _ (by simpa),
        ← openEpisode, inductionHypothesis others, List.append_assoc]

namespace Tracks

variable {reminderMs : Int} {closed : List (List (Report ι))} {last : List (Report ι)}
  {tracker : Option (Tracker ι)} {name : Int → ι} {reading : Reading}

theorem openEpisode_closed (shut : ∀ episode ∈ closed, Closed reminderMs episode) :
    openEpisode closed.flatten = [] := by
  rcases List.eq_nil_or_concat closed with rfl | ⟨earlier, episode, rfl⟩
  · rfl
  · obtain ⟨id, reports, reminders, severity, now, -, rfl⟩ := shut episode (by simp)
    rw [List.concat_eq_append, List.flatten_append, List.flatten_singleton, ← List.append_assoc]
    exact List.rtakeWhile_concat_neg _ _ _ (by simp)

theorem openEpisode_eq (shut : ∀ episode ∈ closed, Closed reminderMs episode)
    (tracks : Tracks reminderMs closed last tracker) :
    openEpisode (closed.flatten ++ last) = last := by
  have unclosed : ∀ report ∈ last, report.stage ≠ .recovered := by
    cases tracks with
    | idle => nofun
    | running running => exact fun report member => (running.stages report member).1
  rw [openEpisode_append unclosed, openEpisode_closed shut, List.nil_append]

/-- The tracker reports exactly what is due. -/
theorem step_iff (tracks : Tracks reminderMs closed last tracker) (report : Report ι) :
    (step name reminderMs reading tracker).2 = some report ↔
      Due name reminderMs last reading report := by
  cases tracks with
  | idle =>
      cases active : reading.active with
      | none =>
          simp only [step, active]
          refine ⟨nofun, fun due => ?_⟩
          cases due with
          | opens _ same => rw [active] at same; cases same
          | escalates begun | reminds begun | recovers begun => cases begun
      | some severity =>
          simp only [step, active, Option.some.injEq]
          constructor
          · rintro rfl
            exact .opens rfl active
          · intro due
            cases due with
            | opens closed same => rw [active, Option.some.injEq] at same; rw [same]
            | escalates begun | reminds begun | recovers begun => cases begun
  | @running _ newest tracker running latest sentAt =>
      obtain ⟨first, begun, id⟩ := running.head
      have nonempty : last ≠ [] := by
        rintro rfl
        cases begun
      cases active : reading.active with
      | none =>
          simp only [step, active, Option.some.injEq]
          constructor
          · rintro rfl
            rw [← id]
            exact .recovers begun active
          · intro due
            cases due with
            | opens closed => exact absurd closed nonempty
            | escalates begun same | reminds begun _ same => rw [active] at same; cases same
            | recovers other =>
                rw [begun, Option.some.injEq] at other
                rw [← other, id]
      | some severity =>
          by_cases escalation : severity = .critical ∧ tracker.severity = .attention
          · obtain ⟨rfl, mild⟩ := escalation
            have unknown : ¬ ∃ report ∈ last, report.stage = .critical := by
              rw [running.critical_iff, mild]
              decide
            simp only [step, active, mild, and_self, if_true, Option.some.injEq]
            constructor
            · rintro rfl
              rw [← id]
              exact .escalates begun active fun report member same => unknown ⟨report, member, same⟩
            · intro due
              cases due with
              | opens closed => exact absurd closed nonempty
              | escalates other =>
                  rw [begun, Option.some.injEq] at other
                  rw [← other, id]
              | reminds _ _ same known =>
                  rw [active, Option.some.injEq] at same
                  exact absurd (known same.symm) unknown
              | recovers _ inactive => rw [active] at inactive; cases inactive
          · have known : severity = .critical → ∃ report ∈ last, report.stage = .critical := by
              intro critical
              rw [running.critical_iff]
              cases worst : tracker.severity with
              | attention => exact absurd ⟨critical, worst⟩ escalation
              | critical => rfl
            simp only [step, active, if_neg escalation]
            constructor
            · split
              · rename_i late
                intro same
                obtain rfl := Option.some.inj same
                rw [← id, ← running.count]
                exact .reminds begun latest active known (sentAt ▸ late)
              · nofun
            · intro due
              cases due with
              | opens closed => exact absurd closed nonempty
              | escalates _ same mild =>
                  rw [active, Option.some.injEq] at same
                  obtain ⟨report, member, critical⟩ := known same
                  exact absurd critical (mild report member)
              | reminds other newest _ _ late =>
                  rw [begun, Option.some.injEq] at other
                  rw [latest, Option.some.injEq] at newest
                  subst other newest
                  rw [if_pos (sentAt ▸ late), running.count, id]
              | recovers _ inactive => rw [active] at inactive; cases inactive

/-- The tracker keeps up with the episodes. -/
theorem step (shut : ∀ episode ∈ closed, Closed reminderMs episode)
    (tracks : Tracks reminderMs closed last tracker)
    (fresh : ∀ report ∈ closed.flatten ++ last, report.id ≠ name reading.now) :
    ∃ closed' last', closed'.flatten ++ last' =
        closed.flatten ++ last ++ (step name reminderMs reading tracker).2.toList ∧
      (∀ episode ∈ closed', Closed reminderMs episode) ∧
      Tracks reminderMs closed' last' (step name reminderMs reading tracker).1 := by
  cases tracks with
  | idle =>
      cases active : reading.active with
      | none =>
          simp only [Episodes.step, active]
          exact ⟨closed, [], by simp, shut, .idle⟩
      | some severity =>
          simp only [Episodes.step, active]
          refine ⟨closed, [⟨name reading.now, severity.stage, reading.now⟩], by simp, shut, ?_⟩
          exact .running (.opened severity reading.now) rfl rfl fun report member =>
            fresh report (List.mem_append_left _ member)
  | @running _ newest tracker running latest sentAt apart =>
      cases active : reading.active with
      | none =>
          simp only [Episodes.step, active]
          refine ⟨closed ++ [last ++ [⟨tracker.id, .recovered, reading.now⟩]], [], by simp, ?_, .idle⟩
          refine List.forall_mem_append.mpr ⟨shut, ?_⟩
          rw [List.forall_mem_singleton]
          exact ⟨_, _, _, _, _, running, rfl⟩
      | some severity =>
          simp only [Episodes.step, active]
          split
          · rename_i escalation
            refine ⟨closed, last ++ [⟨tracker.id, .critical, reading.now⟩], by simp, shut, ?_⟩
            rw [escalation.2] at running
            exact .running (running.escalated reading.now) List.getLast?_concat rfl apart
          · split
            · rename_i late
              refine ⟨closed, last ++ [⟨tracker.id, .reminder (tracker.reminders + 1), reading.now⟩],
                by simp, shut, ?_⟩
              exact .running (running.reminded reading.now latest (sentAt ▸ late))
                List.getLast?_concat rfl apart
            · exact ⟨closed, last, by simp, shut, .running running latest sentAt apart⟩

/-- A report has a new id or a stage that its episode has not reached. -/
theorem step_fresh (tracks : Tracks reminderMs closed last tracker)
    (fresh : ∀ report ∈ closed.flatten ++ last, report.id ≠ name reading.now) :
    ∀ report ∈ (Episodes.step name reminderMs reading tracker).2,
      ∀ earlier ∈ closed.flatten ++ last,
        ¬ (earlier.id = report.id ∧ earlier.stage = report.stage) := by
  intro report sent earlier member
  rintro ⟨sameId, sameStage⟩
  have due := (tracks.step_iff report).mp sent
  cases tracks with
  | idle =>
      cases due with
      | opens => exact fresh earlier member sameId
      | escalates begun | reminds begun | recovers begun => cases begun
  | @running _ newest tracker running latest sentAt apart =>
      obtain ⟨first, head, id⟩ := running.head
      have inside (same : earlier.id = first.id) : earlier ∈ last :=
        (List.mem_append.mp member).resolve_left fun past => apart earlier past (same.trans id)
      cases due with
      | opens => exact fresh earlier member sameId
      | escalates begun _ mild =>
          obtain rfl := Option.some.inj (head.symm.trans begun)
          exact mild earlier (inside sameId) sameStage
      | reminds begun =>
          obtain rfl := Option.some.inj (head.symm.trans begun)
          have number := (running.stages earlier (inside sameId)).2 _ sameStage
          rw [running.count] at number
          omega
      | recovers begun =>
          obtain rfl := Option.some.inj (head.symm.trans begun)
          exact (running.stages earlier (inside sameId)).1 sameStage

end Tracks

/-! ## A whole run -/

/-- What identifies a report. -/
def Report.identity (report : Report ι) : ι × Stage :=
  (report.id, report.stage)

/-- The reports after readings at some instants, and the tracker that made them. -/
structure Kept (name : Int → ι) (reminderMs : Int) (instants : List Int)
    (reports : List (Report ι)) (tracker : Option (Tracker ι)) : Prop where
  episodes : ∃ closed last, reports = closed.flatten ++ last ∧
    (∀ episode ∈ closed, Closed reminderMs episode) ∧ Tracks reminderMs closed last tracker
  named : ∀ report ∈ reports, ∃ instant ∈ instants, report.id = name instant
  once : (reports.map Report.identity).Nodup

namespace Kept

variable {name : Int → ι} {reminderMs : Int} {instants : List Int} {reports : List (Report ι)}
  {tracker : Option (Tracker ι)} {reading : Reading}

theorem start (name : Int → ι) (reminderMs : Int) : Kept name reminderMs [] [] none where
  episodes := ⟨[], [], rfl, nofun, .idle⟩
  named := nofun
  once := List.nodup_nil

theorem step_iff (kept : Kept name reminderMs instants reports tracker) (report : Report ι) :
    (step name reminderMs reading tracker).2 = some report ↔
      Due name reminderMs (openEpisode reports) reading report := by
  obtain ⟨closed, last, rfl, shut, tracks⟩ := kept.episodes
  rw [tracks.openEpisode_eq shut]
  exact tracks.step_iff report

variable (reading) in
theorem id_of_step (kept : Kept name reminderMs instants reports tracker) :
    ∀ report ∈ (Episodes.step name reminderMs reading tracker).2,
      ∃ instant ∈ instants ++ [reading.now], report.id = name instant := by
  intro report sent
  have known {first : Report ι} (begun : (openEpisode reports).head? = some first) :
      ∃ instant ∈ instants ++ [reading.now], first.id = name instant := by
    have inside : first ∈ reports :=
      (List.rtakeWhile_suffix _ _).subset (List.mem_of_mem_head? begun)
    obtain ⟨instant, member, same⟩ := kept.named first inside
    exact ⟨instant, List.mem_append_left _ member, same⟩
  cases (kept.step_iff report).mp sent with
  | opens => exact ⟨reading.now, by simp, rfl⟩
  | escalates begun | reminds begun | recovers begun =>
      obtain ⟨instant, member, same⟩ := known begun
      exact ⟨instant, member, same⟩

/-- A reading at a new instant. -/
theorem step (injective : Function.Injective name)
    (kept : Kept name reminderMs instants reports tracker) (later : reading.now ∉ instants) :
    Kept name reminderMs (instants ++ [reading.now])
      (reports ++ (Episodes.step name reminderMs reading tracker).2.toList)
      (Episodes.step name reminderMs reading tracker).1 := by
  obtain ⟨closed, last, same, shut, tracks⟩ := kept.episodes
  have fresh : ∀ report ∈ reports, report.id ≠ name reading.now := by
    intro report member same
    obtain ⟨instant, known, named⟩ := kept.named report member
    exact later (injective (named.symm.trans same) ▸ known)
  have newId := kept.id_of_step reading
  rw [same] at fresh
  obtain ⟨closed', last', same', shut', tracks'⟩ := tracks.step shut fresh
  refine ⟨⟨closed', last', ?_, shut', tracks'⟩, ?_, ?_⟩
  · rw [same, same']
  · intro report member
    rcases List.mem_append.mp member with old | new
    · obtain ⟨instant, known, named⟩ := kept.named report old
      exact ⟨instant, List.mem_append_left _ known, named⟩
    · exact newId report (Option.mem_toList.mp new)
  · have unused := tracks.step_fresh fresh
    rw [← same] at unused
    cases sent : (Episodes.step name reminderMs reading tracker).2 with
    | none => simpa using kept.once
    | some report =>
        rw [Option.toList_some, List.map_append, List.map_singleton]
        refine List.concat_eq_append ▸ kept.once.concat ?_
        intro member
        obtain ⟨earlier, inside, identity⟩ := List.mem_map.mp member
        obtain ⟨sameId, sameStage⟩ := Prod.mk.inj identity
        exact unused report sent earlier inside ⟨sameId, sameStage⟩

theorem inEpisodes (kept : Kept name reminderMs instants reports tracker) :
    InEpisodes reminderMs reports := by
  obtain ⟨closed, last, same, shut, tracks⟩ := kept.episodes
  refine ⟨closed, last, same, shut, ?_⟩
  cases tracks with
  | idle => exact .inl rfl
  | running running => exact .inr ⟨_, _, _, running⟩

end Kept

end Episodes
