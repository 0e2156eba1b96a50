import MintBot.Settlement.Effects

/-!
# Settlement conservation

Entries of the ledger belong to settled reservations, and those of a reservation that was settled
by components are the entries of that settlement.  So the money identity of a reservation is read
off the ledger, whatever was called before and after.
-/

namespace MintBot.Settlement

open Script

/-! ## The invariant -/

/-- A reservation that was settled by components, with what the ledger holds of it. -/
structure SettledByComponents (books : Books) (row : ReservationRow) (amounts : ComponentAmounts) :
    Prop where
  status : row.status = .settled
  settled : row.settledAmountWei = some amounts.total
  within : ∃ link, row.link = some link ∧ amounts.Within link.chainProfileId row.bounds
  nonneg : ∀ amount ∈ amounts.toList, 0 ≤ amount
  allIn : amounts.total ≤ row.reservedAmountWei
  entries : ∃ now, (books.ledger.filter fun entry => entry.reservationId = row.id) =
    row.settlementEntries amounts now

/-- The books that calls leave. -/
structure Sound (books : Books) : Prop where
  ids : (books.reservations.map ReservationRow.id).Nodup
  executions : ∀ row ∈ books.reservations, ∀ other ∈ books.reservations, ∀ execution,
    row.execution = some execution → other.execution = some execution → row = other
  entries : ∀ entry ∈ books.ledger, ∃ row ∈ books.reservations, row.status = .settled ∧
    entry.reservationId = row.id ∧ entry.id.reservationId = row.id ∧
      entry.executionId = row.execution
  reserved : ∀ row ∈ books.reservations, row.status = .reserved →
    row.amountWei = row.reservedAmountWei ∧ 0 < row.amountWei ∧ row.settledComponents = none
  components : ∀ row ∈ books.reservations, ∀ amounts ∈ row.settledComponents,
    SettledByComponents books row amounts

/-! ## What closing a row keeps -/

/-- The identity and the authorisation of a reservation, which no update changes. -/
structure SameTerms (before after : ReservationRow) : Prop where
  id : after.id = before.id
  walletId : after.walletId = before.walletId
  link : after.link = before.link
  reservedAmountWei : after.reservedAmountWei = before.reservedAmountWei
  bounds : after.bounds = before.bounds

theorem SameTerms.refl (row : ReservationRow) : SameTerms row row :=
  ⟨rfl, rfl, rfl, rfl, rfl⟩

theorem SameTerms.trans {first second third : ReservationRow} (before : SameTerms first second)
    (after : SameTerms second third) : SameTerms first third :=
  ⟨after.id.trans before.id, after.walletId.trans before.walletId, after.link.trans before.link,
    after.reservedAmountWei.trans before.reservedAmountWei, after.bounds.trans before.bounds⟩

theorem SameTerms.execution {before after : ReservationRow} (same : SameTerms before after) :
    after.execution = before.execution :=
  congrArg (Option.map ReservationLink.executionId) same.link

theorem SameTerms.settlementEntries {before after : ReservationRow} (same : SameTerms before after)
    (amounts : ComponentAmounts) (now : Time) :
    after.settlementEntries amounts now = before.settlementEntries amounts now := by
  simp only [ReservationRow.settlementEntries, ReservationRow.paidEntries, ReservationRow.entry,
    same.id, same.walletId, same.execution, same.reservedAmountWei]

/-- The entries of a settlement name the reservation and its execution. -/
theorem ReservationRow.mem_settlementEntries {row : ReservationRow} {amounts : ComponentAmounts}
    {now : Time} {entry : LedgerEntry} (member : entry ∈ row.settlementEntries amounts now) :
    entry.reservationId = row.id ∧ entry.id.reservationId = row.id ∧
      entry.executionId = row.execution := by
  rcases List.mem_append.mp member with paid | refunded
  · obtain ⟨reservation, named, execution, -⟩ := ReservationRow.mem_paidEntries paid
    exact ⟨reservation, named, execution⟩
  · split at refunded
    · obtain rfl := List.mem_singleton.mp refunded
      exact ⟨rfl, rfl, rfl⟩
    · cases refunded

namespace Closing

variable {row after : ReservationRow} {entries : List LedgerEntry}

theorem sameTerms (closing : Closing row after entries) : SameTerms row after := by
  cases closing <;> exact ⟨rfl, rfl, rfl, rfl, rfl⟩

theorem not_reserved (closing : Closing row after entries) : after.status ≠ .reserved := by
  cases closing with
  | components => exact nofun
  | total => exact nofun
  | legacy => exact nofun
  | closed status closing =>
      rcases closing with rfl | rfl <;> exact nofun

/-- The new entries belong to the row, which is settled then. -/
theorem mem_entries (closing : Closing row after entries) {entry : LedgerEntry}
    (member : entry ∈ entries) :
    after.status = .settled ∧ entry.reservationId = row.id ∧ entry.id.reservationId = row.id ∧
      entry.executionId = row.execution := by
  cases closing with
  | components amounts now => exact ⟨rfl, ReservationRow.mem_settlementEntries member⟩
  | total => cases member
  | legacy =>
      obtain rfl := List.mem_singleton.mp member
      exact ⟨rfl, rfl, rfl, rfl⟩
  | closed => cases member

/-- A closed row has settled components only when it was just settled by them. -/
theorem settledComponents (closing : Closing row after entries)
    (pending : row.settledComponents = none) {amounts : ComponentAmounts}
    (settled : amounts ∈ after.settledComponents) :
    ∃ link now, row.link = some link ∧ (∀ amount ∈ amounts.toList, 0 ≤ amount) ∧
      amounts.Within link.chainProfileId row.bounds ∧ amounts.total ≤ row.reservedAmountWei ∧
        after = row.settleComponents amounts now ∧
          entries = row.settlementEntries amounts now := by
  cases closing with
  | components actual now linked nonneg within allIn =>
      obtain rfl := Option.some.inj settled
      exact ⟨_, now, linked, nonneg, within, allIn, rfl, rfl⟩
  | total => exact absurd settled (by simp [pending])
  | legacy => exact absurd settled (by simp [pending])
  | closed => exact absurd settled (by simp [pending])

end Closing

/-! ## Every call keeps the invariant -/

section Preservation

variable {books next : Books}

theorem reserved_eq_some {id : ReservationId} {row : ReservationRow}
    (found : books.reserved id = some row) :
    row ∈ books.reservations ∧ row.id = id ∧ row.status = .reserved := by
  obtain ⟨looked, status⟩ := Option.filter_eq_some_iff.mp found
  obtain ⟨member, named⟩ := Table.lookup_eq_some looked
  exact ⟨member, named, by simpa using status⟩

/-- A rewritten row is an old one under another id, or the closed one. -/
theorem Sound.mem_rewrite (sound : Sound books) {id : ReservationId}
    {change : ReservationRow → ReservationRow} {row other : ReservationRow}
    (found : books.reserved id = some row) :
    other ∈ (books.rewrite id change).reservations ↔
      (other ∈ books.reservations ∧ other.id ≠ id) ∨ other = change row := by
  obtain ⟨member, named, -⟩ := reserved_eq_some found
  rw [Books.rewrite, Table.mem_update]
  refine or_congr_right ⟨?_, ?_⟩
  · rintro ⟨old, oldMember, oldNamed, rfl⟩
    rw [List.inj_on_of_nodup_map sound.ids oldMember member (oldNamed.trans named.symm)]
  · rintro rfl
    exact ⟨row, member, named, rfl⟩

/-- A reserved row has no entries. -/
theorem Sound.no_entries (sound : Sound books) {row : ReservationRow}
    (member : row ∈ books.reservations) (pending : row.status = .reserved) {entry : LedgerEntry}
    (known : entry ∈ books.ledger) :
    entry.reservationId ≠ row.id ∧ entry.id.reservationId ≠ row.id := by
  obtain ⟨owner, ownerMember, settled, reservation, named, -⟩ := sound.entries entry known
  have differ : owner.id ≠ row.id := by
    intro same
    obtain rfl := List.inj_on_of_nodup_map sound.ids ownerMember member same
    rw [pending] at settled
    cases settled
  exact ⟨reservation ▸ differ, named ▸ differ⟩

theorem sound_empty : Sound Books.empty := by
  refine ⟨List.nodup_nil, ?_, ?_, ?_, ?_⟩
  all_goals
    intro row member
    cases member

theorem Sound.inserted (sound : Sound books) {record : NewReservation}
    (fresh : ∀ other ∈ books.reservations, other.id ≠ record.id)
    (alone : ∀ link ∈ record.link, ∀ other ∈ books.reservations,
      other.execution ≠ some link.executionId)
    (positive : 0 < record.amountWei) :
    Sound { books with reservations := books.reservations ++ [record.row] } := by
  have unshared : ∀ row ∈ books.reservations, ∀ execution, record.row.execution = some execution →
      row.execution ≠ some execution := by
    intro row member execution linked
    obtain ⟨link, found, rfl⟩ := Option.map_eq_some_iff.mp linked
    exact alone link found row member
  refine ⟨?_, ?_, ?_, ?_, ?_⟩
  · rw [List.map_append, List.nodup_append]
    refine ⟨sound.ids, List.nodup_singleton _, ?_⟩
    intro id known other last same
    obtain ⟨row, member, rfl⟩ := List.mem_map.mp known
    obtain rfl := List.mem_singleton.mp last
    exact fresh row member same
  · intro row member other otherMember execution first second
    rcases List.mem_append.mp member with old | new
    · rcases List.mem_append.mp otherMember with otherOld | otherNew
      · exact sound.executions row old other otherOld execution first second
      · obtain rfl := List.mem_singleton.mp otherNew
        exact absurd first (unshared row old execution second)
    · obtain rfl := List.mem_singleton.mp new
      rcases List.mem_append.mp otherMember with otherOld | otherNew
      · exact absurd second (unshared other otherOld execution first)
      · exact (List.mem_singleton.mp otherNew).symm
  · intro entry known
    obtain ⟨row, member, facts⟩ := sound.entries entry known
    exact ⟨row, List.mem_append_left _ member, facts⟩
  · intro row member pending
    rcases List.mem_append.mp member with old | new
    · exact sound.reserved row old pending
    · obtain rfl := List.mem_singleton.mp new
      exact ⟨rfl, positive, rfl⟩
  · intro row member amounts settled
    rcases List.mem_append.mp member with old | new
    · obtain ⟨status, total, within, nonneg, allIn, entries⟩ :=
        sound.components row old amounts settled
      exact ⟨status, total, within, nonneg, allIn, entries⟩
    · obtain rfl := List.mem_singleton.mp new
      cases settled

theorem Sound.closed (sound : Sound books) {id : ReservationId}
    {change : ReservationRow → ReservationRow} {row : ReservationRow} {entries : List LedgerEntry}
    (found : books.reserved id = some row) (closing : Closing row (change row) entries) :
    Sound { books.rewrite id change with ledger := books.ledger ++ entries } := by
  obtain ⟨rowMember, rfl, pending⟩ := reserved_eq_some found
  have same := closing.sameTerms
  have mem : ∀ other, other ∈ (books.rewrite row.id change).reservations ↔
      (other ∈ books.reservations ∧ other.id ≠ row.id) ∨ other = change row :=
    fun other => sound.mem_rewrite found
  -- The old entries are not the row's, the new ones are.
  have old : books.ledger.filter (fun entry => entry.reservationId = row.id) = [] := by
    rw [List.filter_eq_nil_iff]
    intro entry known
    simpa using (sound.no_entries rowMember pending known).1
  have new : entries.filter (fun entry => entry.reservationId = row.id) = entries := by
    rw [List.filter_eq_self]
    intro entry member
    simpa using (closing.mem_entries member).2.1
  refine ⟨?_, ?_, ?_, ?_, ?_⟩
  · have keys : (books.rewrite row.id change).reservations.map ReservationRow.id =
        books.reservations.map ReservationRow.id := by
      simp only [Books.rewrite, Table.update, List.map_map]
      refine List.map_congr_left fun other member => ?_
      by_cases named : other.id = row.id
      · obtain rfl := List.inj_on_of_nodup_map sound.ids member rowMember named
        simpa using same.id
      · simp [named]
    exact keys ▸ sound.ids
  · intro first firstMember second secondMember execution firstLinked secondLinked
    -- Both stand for rows of the old books with the same execution.
    have origin : ∀ other ∈ (books.rewrite row.id change).reservations,
        other.execution = some execution → ∃ earlier ∈ books.reservations,
          earlier.execution = some execution ∧
            other = if earlier.id = row.id then change row else earlier := by
      intro other member linked
      rcases (mem other).mp member with ⟨known, differ⟩ | rfl
      · exact ⟨other, known, linked, (if_neg differ).symm⟩
      · exact ⟨row, rowMember, same.execution ▸ linked, (if_pos rfl).symm⟩
    obtain ⟨earlier, known, linked, rfl⟩ := origin first firstMember firstLinked
    obtain ⟨other, otherKnown, otherLinked, rfl⟩ := origin second secondMember secondLinked
    rw [sound.executions earlier known other otherKnown execution linked otherLinked]
  · intro entry known
    rcases List.mem_append.mp known with before | added
    · obtain ⟨owner, ownerMember, settled, reservation, named, execution⟩ :=
        sound.entries entry before
      refine ⟨owner, (mem owner).mpr (.inl ⟨ownerMember, ?_⟩), settled, reservation, named,
        execution⟩
      exact fun owned => (sound.no_entries rowMember pending before).1 (reservation.trans owned)
    · obtain ⟨settled, reservation, named, execution⟩ := closing.mem_entries added
      exact ⟨change row, (mem _).mpr (.inr rfl), settled, reservation.trans same.id.symm,
        named.trans same.id.symm, execution.trans same.execution.symm⟩
  · intro other member status
    rcases (mem other).mp member with ⟨known, -⟩ | rfl
    · exact sound.reserved other known status
    · exact absurd status closing.not_reserved
  · intro other member amounts settled
    rcases (mem other).mp member with ⟨known, differ⟩ | rfl
    · obtain ⟨status, total, within, nonneg, allIn, now, entriesOf⟩ :=
        sound.components other known amounts settled
      refine ⟨status, total, within, nonneg, allIn, now, ?_⟩
      have foreign : entries.filter (fun entry => entry.reservationId = other.id) = [] := by
        rw [List.filter_eq_nil_iff]
        intro entry added
        simpa [(closing.mem_entries added).2.1] using differ.symm
      rw [List.filter_append, foreign, List.append_nil, entriesOf]
    · obtain ⟨link, now, linked, nonneg, within, allIn, changed, rfl⟩ :=
        closing.settledComponents (sound.reserved row rowMember pending).2.2 settled
      rw [changed]
      refine ⟨rfl, rfl, ⟨link, linked, within⟩, nonneg, allIn, now, ?_⟩
      change (books.ledger ++ row.settlementEntries amounts now).filter
        (fun entry => entry.reservationId = row.id) = _
      rw [List.filter_append, old, new, List.nil_append]
      rfl

theorem Sound.effect (sound : Sound books) (effect : Effect books next) : Sound next := by
  cases effect with
  | unchanged => exact sound
  | inserted record fresh alone positive => exact sound.inserted fresh alone positive
  | closed id change found closing => exact sound.closed found closing

/-- The books that calls leave are sound. -/
theorem Sound.after (sound : Sound books) (calls : List TimedCall) : Sound (books.after calls) := by
  induction calls generalizing books with
  | nil => exact sound
  | cons timed rest inductionHypothesis =>
      exact inductionHypothesis (sound.effect (books.next_effect timed))

/-! ## Settled reservations stay as they are -/

def Books.entriesOf (books : Books) (id : ReservationId) : List LedgerEntry :=
  books.ledger.filter fun entry => entry.reservationId = id

/-- A settled row and its entries are kept by every call. -/
theorem Effect.keeps_settled (effect : Effect books next) (sound : Sound books)
    {row : ReservationRow} (member : row ∈ books.reservations) (settled : row.status = .settled) :
    row ∈ next.reservations ∧ next.entriesOf row.id = books.entriesOf row.id := by
  cases effect with
  | unchanged => exact ⟨member, rfl⟩
  | inserted => exact ⟨List.mem_append_left _ member, rfl⟩
  | @closed id change other entries found closing =>
      obtain ⟨otherMember, rfl, pending⟩ := reserved_eq_some found
      have differ : row.id ≠ other.id := by
        intro same
        obtain rfl := List.inj_on_of_nodup_map sound.ids member otherMember same
        rw [pending] at settled
        cases settled
      refine ⟨(sound.mem_rewrite found).mpr (.inl ⟨member, differ⟩), ?_⟩
      have foreign : entries.filter (fun entry => entry.reservationId = row.id) = [] := by
        rw [List.filter_eq_nil_iff]
        intro entry added
        simpa [(closing.mem_entries added).2.1] using differ.symm
      exact (List.filter_append _ _).trans (by rw [foreign, List.append_nil]; rfl)

/-- Every call keeps the terms of every reservation. -/
theorem Effect.keeps_terms (effect : Effect books next) (sound : Sound books)
    {row : ReservationRow} (member : row ∈ books.reservations) :
    ∃ after ∈ next.reservations, SameTerms row after := by
  cases effect with
  | unchanged => exact ⟨row, member, .refl row⟩
  | inserted => exact ⟨row, List.mem_append_left _ member, .refl row⟩
  | @closed id change other entries found closing =>
      obtain ⟨otherMember, rfl, -⟩ := reserved_eq_some found
      by_cases same : row.id = other.id
      · obtain rfl := List.inj_on_of_nodup_map sound.ids member otherMember same
        exact ⟨change row, (sound.mem_rewrite found).mpr (.inr rfl), closing.sameTerms⟩
      · exact ⟨row, (sound.mem_rewrite found).mpr (.inl ⟨member, same⟩), .refl row⟩

theorem Sound.after_keeps_settled (sound : Sound books) {row : ReservationRow}
    (member : row ∈ books.reservations) (settled : row.status = .settled)
    (calls : List TimedCall) :
    row ∈ (books.after calls).reservations ∧
      (books.after calls).entriesOf row.id = books.entriesOf row.id := by
  induction calls generalizing books with
  | nil => exact ⟨member, rfl⟩
  | cons timed rest inductionHypothesis =>
      have effect := books.next_effect timed
      obtain ⟨kept, entries⟩ := effect.keeps_settled sound member settled
      obtain ⟨later, laterEntries⟩ := inductionHypothesis (sound.effect effect) kept
      exact ⟨later, laterEntries.trans entries⟩

theorem Sound.after_keeps_terms (sound : Sound books) {row : ReservationRow}
    (member : row ∈ books.reservations) (calls : List TimedCall) :
    ∃ later ∈ (books.after calls).reservations, SameTerms row later := by
  induction calls generalizing books row with
  | nil => exact ⟨row, member, .refl row⟩
  | cons timed rest inductionHypothesis =>
      have effect := books.next_effect timed
      obtain ⟨kept, keptMember, first⟩ := effect.keeps_terms sound member
      obtain ⟨later, laterMember, second⟩ := inductionHypothesis (sound.effect effect) keptMember
      exact ⟨later, laterMember, first.trans second⟩

/-! ## At most one settlement -/

/-- The reservation is settled, one way or another. -/
def Books.Settled (books : Books) (id : ReservationId) : Prop :=
  ∃ row ∈ books.reservations, row.id = id ∧ row.status = .settled

instance (books : Books) (id : ReservationId) : Decidable (books.Settled id) := by
  unfold Books.Settled
  infer_instance

/-- How many of the calls settle a reservation. -/
def settlements (id : ReservationId) : Books → List TimedCall → Nat
  | _, [] => 0
  | books, timed :: rest =>
      (if ¬ books.Settled id ∧ (books.next timed).Settled id then 1 else 0) +
        settlements id (books.next timed) rest

theorem Sound.settled_next (sound : Sound books) {id : ReservationId} (settled : books.Settled id)
    (timed : TimedCall) : (books.next timed).Settled id := by
  obtain ⟨row, member, named, status⟩ := settled
  exact ⟨row, ((books.next_effect timed).keeps_settled sound member status).1, named, status⟩

theorem Sound.settlements_settled (sound : Sound books) {id : ReservationId}
    (settled : books.Settled id) (calls : List TimedCall) : settlements id books calls = 0 := by
  induction calls generalizing books with
  | nil => rfl
  | cons timed rest inductionHypothesis =>
      rw [settlements, if_neg fun both => both.1 settled,
        inductionHypothesis (sound.effect (books.next_effect timed))
          (sound.settled_next settled timed)]

theorem Sound.settlements_le_one (sound : Sound books) (id : ReservationId)
    (calls : List TimedCall) : settlements id books calls ≤ 1 := by
  induction calls generalizing books with
  | nil => exact Nat.zero_le 1
  | cons timed rest inductionHypothesis =>
      have after := sound.effect (books.next_effect timed)
      rw [settlements]
      by_cases settles : ¬ books.Settled id ∧ (books.next timed).Settled id
      · rw [if_pos settles, after.settlements_settled settles.2]
      · rw [if_neg settles, Nat.zero_add]
        exact inductionHypothesis after

end Preservation

/-! ## The money identity -/

/-- The sum of the non-refund entries of an execution. -/
def Books.spent (books : Books) (execution : ExecutionId) : Wei :=
  ((books.ledger.filter fun entry =>
    entry.executionId = some execution ∧ entry.component ≠ .refund).map LedgerEntry.amountWei).sum

/-- The sum of the refund entries of an execution. -/
def Books.refunded (books : Books) (execution : ExecutionId) : Wei :=
  ((books.ledger.filter fun entry =>
    entry.executionId = some execution ∧ entry.component = .refund).map LedgerEntry.amountWei).sum

/-- What a settlement by components leaves for its execution. -/
structure Balanced (books : Books) (row : ReservationRow) (amounts : ComponentAmounts)
    (link : ReservationLink) : Prop where
  linked : row.link = some link
  spent : row.settledAmountWei = some (books.spent link.executionId)
  whole : books.spent link.executionId + books.refunded link.executionId = row.reservedAmountWei
  within : amounts.Within link.chainProfileId row.bounds

theorem ReservationRow.settlementEntries_spent (row : ReservationRow) (amounts : ComponentAmounts)
    (now : Time) :
    (((row.settlementEntries amounts now).filter fun entry => entry.component ≠ .refund).map
      LedgerEntry.amountWei).sum = amounts.total := by
  unfold ReservationRow.settlementEntries ReservationRow.paidEntries ReservationRow.entry
    ComponentAmounts.total
  split <;> simp [Int.add_assoc]

theorem ReservationRow.settlementEntries_refunded {row : ReservationRow}
    {amounts : ComponentAmounts} (allIn : amounts.total ≤ row.reservedAmountWei) (now : Time) :
    (((row.settlementEntries amounts now).filter fun entry => entry.component = .refund).map
      LedgerEntry.amountWei).sum = row.reservedAmountWei - amounts.total := by
  unfold ReservationRow.settlementEntries ReservationRow.paidEntries ReservationRow.entry
  split
  · simp
  · rename_i nothing
    have exact : row.reservedAmountWei - amounts.total = 0 :=
      Int.le_antisymm (Int.not_lt.mp nothing) (Int.sub_nonneg.mpr allIn)
    simp [exact]

/-- The entries of an execution are those of its reservation. -/
theorem Sound.entries_of_execution {books : Books} (sound : Sound books) {row : ReservationRow}
    (member : row ∈ books.reservations) {execution : ExecutionId}
    (linked : row.execution = some execution) :
    (books.ledger.filter fun entry => entry.executionId = some execution) =
      books.entriesOf row.id := by
  refine List.filter_congr fun entry known => ?_
  obtain ⟨owner, ownerMember, -, reservation, -, paidFor⟩ := sound.entries entry known
  rw [decide_eq_decide, paidFor, reservation]
  constructor
  · intro same
    rw [sound.executions owner ownerMember row member execution same linked]
  · intro same
    rw [List.inj_on_of_nodup_map sound.ids ownerMember member same, linked]

theorem Sound.balanced {books : Books} (sound : Sound books) {row : ReservationRow}
    (member : row ∈ books.reservations) {amounts : ComponentAmounts}
    (settled : amounts ∈ row.settledComponents) : ∃ link, Balanced books row amounts link := by
  obtain ⟨-, total, ⟨link, linked, within⟩, -, allIn, now, entries⟩ :=
    sound.components row member amounts settled
  have owned : (books.ledger.filter fun entry => entry.executionId = some link.executionId) =
      row.settlementEntries amounts now :=
    (sound.entries_of_execution member (congrArg (Option.map _) linked)).trans entries
  have spent : books.spent link.executionId = amounts.total := by
    rw [← row.settlementEntries_spent amounts now, ← owned, List.filter_filter]
    simp [Books.spent, and_comm]
  have refunded : books.refunded link.executionId = row.reservedAmountWei - amounts.total := by
    rw [← ReservationRow.settlementEntries_refunded allIn now, ← owned, List.filter_filter]
    simp [Books.refunded, and_comm]
  refine ⟨link, linked, total.trans (congrArg some spent.symm), ?_, within⟩
  rw [spent, refunded]
  exact (Int.add_comm _ _).trans (Int.sub_add_cancel _ _)

/-- A settlement by components that succeeds is on the row. -/
theorem Sound.recorded {books next : Books} (sound : Sound books) {id : ReservationId}
    {request : SettlementRequest} {evidence : Evidence} {now : Time}
    (ended : Ends (TimedCall.script ⟨.settleComponents id request, evidence, now⟩) books ⟨⟩ next) :
    ∃ row ∈ next.reservations, row.id = id ∧ row.settledComponents = some request.amounts := by
  obtain ⟨row, link, found, -, -, -, rfl⟩ :=
    ends_settleExecutionComponentsInTransaction.mp (ends_immediate.mp ended)
  exact ⟨_, (sound.mem_rewrite found).mpr (.inr rfl), (reserved_eq_some found).2.1, rfl⟩

/-! ## Runs -/

/-- What holds of the calls of a run, in any order and with any evidence. -/
structure Conserved (calls : List TimedCall) : Prop where
  once : ∀ id, settlements id Books.empty calls ≤ 1
  final : ∀ earlier later, calls = earlier ++ later →
    ∀ row ∈ (Books.empty.after earlier).reservations, row.status = .settled →
      row ∈ (Books.empty.after calls).reservations ∧
        (Books.empty.after calls).entriesOf row.id = (Books.empty.after earlier).entriesOf row.id
  recorded : ∀ earlier timed later id request, calls = earlier ++ timed :: later →
    timed.call = .settleComponents id request →
      (attempt timed.script (Books.empty.after earlier)).1 = .ok ⟨⟩ →
        ∃ row ∈ (Books.empty.after (earlier ++ [timed])).reservations, row.id = id ∧
          row.settledComponents = some request.amounts
  balanced : ∀ row ∈ (Books.empty.after calls).reservations, ∀ amounts ∈ row.settledComponents,
    ∃ link, Balanced (Books.empty.after calls) row amounts link
  unchanged : ∀ earlier later, calls = earlier ++ later →
    ∀ row ∈ (Books.empty.after earlier).reservations,
      ∃ after ∈ (Books.empty.after calls).reservations, SameTerms row after
  undone : ∀ earlier timed later, calls = earlier ++ timed :: later →
    ∀ failure, (attempt timed.script (Books.empty.after earlier)).1 = .error failure →
      Books.empty.after (earlier ++ [timed]) = Books.empty.after earlier

theorem Books.after_append (books : Books) (earlier later : List TimedCall) :
    books.after (earlier ++ later) = (books.after earlier).after later :=
  List.foldl_append

/-- Any sequence of settlements, releases and new reservations conserves the money. -/
theorem settlement_conserved (calls : List TimedCall) : Conserved calls where
  once id := sound_empty.settlements_le_one id calls
  final := by
    rintro earlier later rfl row member settled
    rw [Books.after_append]
    exact (sound_empty.after earlier).after_keeps_settled member settled later
  recorded := by
    rintro earlier ⟨call, evidence, now⟩ later id request _ rfl succeeded
    rw [Books.after_append]
    exact (sound_empty.after earlier).recorded (Prod.ext succeeded rfl)
  balanced row member amounts settled := (sound_empty.after calls).balanced member settled
  unchanged := by
    rintro earlier later rfl row member
    rw [Books.after_append]
    exact (sound_empty.after earlier).after_keeps_terms member later
  undone := by
    intro earlier timed later _ failure failed
    rw [Books.after_append]
    exact timed.undone _ failure _ (Prod.ext failed rfl)

end MintBot.Settlement
