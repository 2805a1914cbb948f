import CyfsNdn.NamedStore.EdgeOutbox

/-!
# The outbox sender

`OutboxSender::run_loop` of `named_store/src/outbox_sender.rs`: fetch the entries
that are ready, deliver them one by one, delete an entry that was delivered and
push a failed one back with a growing delay.

Every call of the loop may fail.  A failed entry waits while a younger entry for
the same pair is ready, so entries can be applied out of order.  The proof keeps
one equation: replaying what is pending on top of the receiver gives what
replaying everything that was ever enqueued gives.  Applying an entry ahead of
its turn does not break it; deleting the entry does, if an older entry with the
other operation is still pending.
-/

namespace CyfsNdn
namespace NamedStore

open NdnLib Relational Transition

open NamedLocalStoreDb (edgeWrite outboxEntryOfRow)

/-- Where the loop stands: at the head of its `for` with the entries to come, or
after a delivery with the entry it was about. -/
inductive SenderPhase where
  | delivering (entries : List NamedLocalStoreDb.OutboxEntry)
  | completing (entry : NamedLocalStoreDb.OutboxEntry) (rest : List NamedLocalStoreDb.OutboxEntry)
  | retrying (entry : NamedLocalStoreDb.OutboxEntry) (rest : List NamedLocalStoreDb.OutboxEntry)
  deriving DecidableEq

/-- The sender with its store, the receiving bucket and the clock.  `enqueued` is
what has been enqueued since the start, for the statement only. -/
structure OutboxSender where
  store : NamedLocalStoreDb
  receiver : NamedLocalStoreDb
  clock : Nat
  phase : SenderPhase
  enqueued : List OutboxRow

namespace OutboxSender

/-- What `router.deliver` can do: succeed, or fail before or after the receiver
has applied the message. -/
inductive DeliverOutcome where
  | ok
  | errBeforeApply
  | errAfterApply
  deriving DecidableEq

/-- A message is enqueued, time passes, or the loop makes its next call with the
given result. -/
inductive Action where
  | enqueue (op : EdgeOp) (referee referrer : ObjId)
  | tick (secs : Nat)
  | fetch (ok : Bool)
  | deliver (outcome : DeliverOutcome)
  | complete (ok : Bool)
  | retry (ok : Bool)
  deriving DecidableEq

/-- A sender with nothing pending. -/
def init (receiver : NamedLocalStoreDb) : OutboxSender where
  store := NamedLocalStoreDb.empty
  receiver := receiver
  clock := 0
  phase := .delivering []
  enqueued := []

/-- The row that an enqueue inserts. -/
def enqueuedRow (crates : Crates) (s : OutboxSender) (op : EdgeOp)
    (referee referrer : ObjId) : OutboxRow where
  seq := s.store.edgeOutbox.next
  op := op
  referee := referee.toString crates
  referrer := referrer.toString crates
  targetEpoch := 1
  createdAt := asI64 s.clock
  attempts := 0
  nextTryAt := 0

/-- One step; a call that is not the next one of the loop does nothing. -/
def step (crates : Crates) (batchSize : Nat) (s : OutboxSender) (action : Action) :
    OutboxSender :=
  match action, s.phase with
  | .enqueue op referee referrer, _ =>
      { s with
        store := NamedLocalStoreDb.enqueueEdgeTx s.clock op (referrer.toString crates) s.store
          (referee.toString crates)
        enqueued := s.enqueued ++ [s.enqueuedRow crates op referee referrer] }
  | .tick secs, _ => { s with clock := s.clock + secs }
  | .fetch true, .delivering [] =>
      { s with phase := .delivering (s.store.fetchOutboxReady crates s.clock batchSize) }
  | .deliver outcome, .delivering (entry :: rest) =>
      match outcome with
      | .ok =>
          { s with
            receiver := s.receiver.applyEdge crates s.clock entry.msg
            phase := .completing entry rest }
      | .errBeforeApply => { s with phase := .retrying entry rest }
      | .errAfterApply =>
          { s with
            receiver := s.receiver.applyEdge crates s.clock entry.msg
            phase := .retrying entry rest }
  | .complete ok, .completing entry rest =>
      { s with
        store := if ok then s.store.completeOutboxEntry entry.seq else s.store
        phase := .delivering rest }
  | .retry ok, .retrying entry rest =>
      { s with
        store := if ok then s.store.retryOutboxEntry s.clock entry.seq else s.store
        phase := .delivering rest }
  | _, _ => s

/-- The call is the next one of the loop, or one that comes at any time. -/
def isNext : SenderPhase → Action → Bool
  | _, .enqueue _ _ _ => true
  | _, .tick _ => true
  | .delivering [], .fetch true => true
  | .delivering (_ :: _), .deliver _ => true
  | .completing _ _, .complete _ => true
  | .retrying _ _, .retry _ => true
  | _, _ => false

section Equations

variable (crates : Crates) (batchSize : Nat) {s : OutboxSender}
  {entry : NamedLocalStoreDb.OutboxEntry} {rest : List NamedLocalStoreDb.OutboxEntry}

theorem step_of_not_next {action : Action} (h : isNext s.phase action = false) :
    s.step crates batchSize action = s := by
  obtain ⟨store, receiver, clock, phase, enqueued⟩ := s
  cases action with
  | enqueue op referee referrer => cases phase <;> cases h
  | tick secs => cases phase <;> cases h
  | fetch ok =>
      cases ok with
      | false => rfl
      | true =>
          cases phase with
          | completing entry rest => rfl
          | retrying entry rest => rfl
          | delivering entries =>
              cases entries with
              | nil => cases h
              | cons entry rest => rfl
  | deliver outcome =>
      cases phase with
      | completing entry rest => rfl
      | retrying entry rest => rfl
      | delivering entries =>
          cases entries with
          | nil => rfl
          | cons entry rest => cases h
  | complete ok =>
      cases phase with
      | completing entry rest => cases h
      | retrying entry rest => rfl
      | delivering entries => rfl
  | retry ok =>
      cases phase with
      | completing entry rest => rfl
      | retrying entry rest => cases h
      | delivering entries => rfl

theorem step_fetch (hat : s.phase = .delivering []) :
    s.step crates batchSize (.fetch true) =
      { s with phase := .delivering (s.store.fetchOutboxReady crates s.clock batchSize) } := by
  obtain ⟨store, receiver, clock, phase, enqueued⟩ := s
  cases hat
  rfl

theorem step_deliver_ok (hat : s.phase = .delivering (entry :: rest)) :
    s.step crates batchSize (.deliver .ok) =
      { s with
        receiver := s.receiver.applyEdge crates s.clock entry.msg
        phase := .completing entry rest } := by
  obtain ⟨store, receiver, clock, phase, enqueued⟩ := s
  cases hat
  rfl

theorem step_deliver_errBeforeApply (hat : s.phase = .delivering (entry :: rest)) :
    s.step crates batchSize (.deliver .errBeforeApply) =
      { s with phase := .retrying entry rest } := by
  obtain ⟨store, receiver, clock, phase, enqueued⟩ := s
  cases hat
  rfl

theorem step_deliver_errAfterApply (hat : s.phase = .delivering (entry :: rest)) :
    s.step crates batchSize (.deliver .errAfterApply) =
      { s with
        receiver := s.receiver.applyEdge crates s.clock entry.msg
        phase := .retrying entry rest } := by
  obtain ⟨store, receiver, clock, phase, enqueued⟩ := s
  cases hat
  rfl

theorem step_complete (hat : s.phase = .completing entry rest) (ok : Bool) :
    s.step crates batchSize (.complete ok) =
      { s with
        store := if ok then s.store.completeOutboxEntry entry.seq else s.store
        phase := .delivering rest } := by
  obtain ⟨store, receiver, clock, phase, enqueued⟩ := s
  cases hat
  rfl

theorem step_retry (hat : s.phase = .retrying entry rest) (ok : Bool) :
    s.step crates batchSize (.retry ok) =
      { s with
        store := if ok then s.store.retryOutboxEntry s.clock entry.seq else s.store
        phase := .delivering rest } := by
  obtain ⟨store, receiver, clock, phase, enqueued⟩ := s
  cases hat
  rfl

end Equations

/-- The step delivers an entry with success while an older entry for the same
pair, with the other operation, is still in the outbox. -/
def deliversOutOfOrder (crates : Crates) (s : OutboxSender) (action : Action) : Bool :=
  match action, s.phase with
  | .deliver .ok, .delivering (entry :: _) =>
      s.store.edgeOutbox.rows.any fun r =>
        r.seq < entry.seq && r.referee = entry.msg.referee.toString crates &&
          r.referrer = entry.msg.referrer.toString crates && r.op ≠ entry.msg.op
  | _, _ => false

/-! ## The invariant -/

/-- The entry was read from this row. -/
structure ReadFrom (crates : Crates) (entry : NamedLocalStoreDb.OutboxEntry)
    (row : OutboxRow) : Prop where
  seq : entry.seq = row.seq
  op : entry.msg.op = row.op
  referee : entry.msg.referee.toString crates = row.referee
  referrer : entry.msg.referrer.toString crates = row.referrer

/-- The entries are different rows of the outbox. -/
structure Pending (crates : Crates) (store : NamedLocalStoreDb)
    (entries : List NamedLocalStoreDb.OutboxEntry) : Prop where
  read : ∀ entry ∈ entries, ∃ row ∈ store.edgeOutbox.rows, ReadFrom crates entry row
  distinct : entries.Pairwise fun e e' => e.seq ≠ e'.seq

/-- No older row for the pair of the entry has the other operation. -/
def InOrder (crates : Crates) (store : NamedLocalStoreDb)
    (entry : NamedLocalStoreDb.OutboxEntry) : Prop :=
  ∀ r ∈ store.edgeOutbox.rows, r.seq < entry.seq →
    r.referee = entry.msg.referee.toString crates →
      r.referrer = entry.msg.referrer.toString crates → r.op = entry.msg.op

/-- What the phase says about the outbox and the receiver. -/
def PhaseInv (crates : Crates) (s : OutboxSender) : Prop :=
  match s.phase with
  | .delivering entries => Pending crates s.store entries
  | .completing entry rest =>
      Pending crates s.store (entry :: rest) ∧ InOrder crates s.store entry ∧
        s.receiver.hasRef (entry.msg.referee.toString crates,
          entry.msg.referrer.toString crates) = decide (entry.msg.op = .add)
  | .retrying entry rest => Pending crates s.store (entry :: rest)

/-- The invariant of the loop. -/
structure Inv (crates : Crates) (receiver : NamedLocalStoreDb) (s : OutboxSender) : Prop where
  settled : replay s.receiver.hasRef s.store.edgeLog =
    replay receiver.hasRef (s.enqueued.map edgeWrite)
  texts : ∀ row ∈ s.store.edgeOutbox.rows,
    (∃ id : ObjId, row.referee = id.toString crates) ∧
      ∃ id : ObjId, row.referrer = id.toString crates
  sorted : s.enqueued.Pairwise fun r r' => r.seq < r'.seq
  below : ∀ r ∈ s.enqueued, r.seq < s.store.edgeOutbox.next
  phase : PhaseInv crates s

theorem inv_init (crates : Crates) (receiver : NamedLocalStoreDb) :
    Inv crates receiver (init receiver) where
  settled := rfl
  texts := by
    intro row hrow
    exact absurd hrow List.not_mem_nil
  sorted := List.Pairwise.nil
  below := by
    intro r hr
    exact absurd hr List.not_mem_nil
  phase := ⟨fun entry hentry => absurd hentry List.not_mem_nil, List.Pairwise.nil⟩

section Steps

variable {crates : Crates} {receiver : NamedLocalStoreDb}

theorem Pending.tail {store : NamedLocalStoreDb} {entry : NamedLocalStoreDb.OutboxEntry}
    {rest : List NamedLocalStoreDb.OutboxEntry} (h : Pending crates store (entry :: rest)) :
    Pending crates store rest :=
  ⟨fun e he => h.read e (List.mem_cons_of_mem _ he), (List.pairwise_cons.mp h.distinct).2⟩

/-- The rows of the listed entries may change in their retry columns. -/
theorem Pending.congr {store store' : NamedLocalStoreDb}
    {entries : List NamedLocalStoreDb.OutboxEntry} (h : Pending crates store entries)
    (hrows : ∀ entry ∈ entries, ∀ row ∈ store.edgeOutbox.rows, ReadFrom crates entry row →
      ∃ row' ∈ store'.edgeOutbox.rows, ReadFrom crates entry row') :
    Pending crates store' entries where
  read := by
    intro entry hentry
    obtain ⟨row, hrow, hread⟩ := h.read entry hentry
    exact hrows entry hentry row hrow hread
  distinct := h.distinct

/-- What `fetch_outbox_ready` returns is pending. -/
theorem pending_fetchOutboxReady (laws : crates.Lawful) {store : NamedLocalStoreDb}
    (htexts : ∀ row ∈ store.edgeOutbox.rows,
      (∃ id : ObjId, row.referee = id.toString crates) ∧
        ∃ id : ObjId, row.referrer = id.toString crates) (now limit : Nat) :
    Pending crates store (store.fetchOutboxReady crates now limit) := by
  have hsub : ((store.edgeOutbox.rows.filter fun r => r.nextTryAt ≤ asI64 now).take
      limit).Sublist store.edgeOutbox.rows :=
    (List.take_sublist _ _).trans List.filter_sublist
  constructor
  · intro entry hentry
    obtain ⟨row, hrow, hparsed⟩ := List.mem_filterMap.mp hentry
    have hmem := hsub.subset hrow
    obtain ⟨hseq, hop, -, hreferee, -, hreferrer⟩ :=
      NamedLocalStoreDb.outboxEntryOfRow_eq_some laws hparsed (htexts row hmem).1
        (htexts row hmem).2
    exact ⟨row, hmem, hseq, hop, hreferee, hreferrer⟩
  · have hseq : ∀ row entry, outboxEntryOfRow crates row = some entry → entry.seq = row.seq := by
      intro row entry hparsed
      unfold outboxEntryOfRow at hparsed
      split at hparsed
      · rw [Option.some.injEq] at hparsed
        rw [← hparsed]
      · cases hparsed
    unfold NamedLocalStoreDb.fetchOutboxReady
    refine (List.Pairwise.sublist hsub store.edgeOutbox.sorted).filterMap _ ?_
    intro row row' hlt entry hentry entry' hentry'
    rw [hseq row entry hentry, hseq row' entry' hentry']
    exact Nat.ne_of_lt hlt

/-- A pending entry may be applied to the receiver at any time: its row still
decides the pair later. -/
theorem Inv.settled_applyEdge {s : OutboxSender} (h : Inv crates receiver s)
    {entry : NamedLocalStoreDb.OutboxEntry} {row : OutboxRow}
    (hrow : row ∈ s.store.edgeOutbox.rows) (hread : ReadFrom crates entry row) (now : Nat) :
    replay (s.receiver.applyEdge crates now entry.msg).hasRef s.store.edgeLog =
      replay receiver.hasRef (s.enqueued.map edgeWrite) := by
  rw [NamedLocalStoreDb.hasRef_applyEdge, replay_update_of_mem, h.settled]
  refine ⟨edgeWrite row, List.mem_map.mpr ⟨row, hrow, rfl⟩, ?_⟩
  rw [hread.referee, hread.referrer]
  rfl

/-- A delivered entry may be deleted when nothing older disagrees with it. -/
theorem Inv.settled_completeOutboxEntry {s : OutboxSender} (h : Inv crates receiver s)
    {entry : NamedLocalStoreDb.OutboxEntry} {row : OutboxRow}
    (hrow : row ∈ s.store.edgeOutbox.rows) (hread : ReadFrom crates entry row)
    (horder : InOrder crates s.store entry)
    (happlied : s.receiver.hasRef (entry.msg.referee.toString crates,
      entry.msg.referrer.toString crates) = decide (entry.msg.op = .add)) :
    replay s.receiver.hasRef (s.store.completeOutboxEntry entry.seq).edgeLog =
      replay receiver.hasRef (s.enqueued.map edgeWrite) := by
  obtain ⟨before, after, hsplit⟩ := List.append_of_mem hrow
  have hrows : (s.store.completeOutboxEntry entry.seq).edgeOutbox.rows = before ++ after := by
    rw [hread.seq]
    exact s.store.edgeOutbox.deleteSeq_rows_of_split hsplit
  rw [← h.settled]
  unfold NamedLocalStoreDb.edgeLog
  rw [hrows, hsplit, List.map_append, List.map_append, List.map_cons]
  rw [hread.referee, hread.referrer, hread.op] at happlied
  refine replay_drop_applied ?_ happlied
  intro write hwrite hkey
  obtain ⟨r, hr, rfl⟩ := List.mem_map.mp hwrite
  have hsorted := s.store.edgeOutbox.sorted
  rw [hsplit, List.pairwise_append] at hsorted
  have hlt := hsorted.2.2 r hr row (by simp)
  have hop := horder r (by rw [hsplit]; simp [hr]) (by rw [hread.seq]; exact hlt)
    (by rw [hread.referee]; exact congrArg Prod.fst hkey)
    (by rw [hread.referrer]; exact congrArg Prod.snd hkey)
  rw [hread.op] at hop
  simp only [edgeWrite, hop]

/-- A retry changes no column that a message is read from. -/
theorem edgeLog_retryOutboxEntry (store : NamedLocalStoreDb) (now seq : Nat) :
    (store.retryOutboxEntry now seq).edgeLog = store.edgeLog := by
  unfold NamedLocalStoreDb.edgeLog NamedLocalStoreDb.retryOutboxEntry
  simp only [SeqTable.updateSeq_rows, List.map_map]
  apply List.map_congr_left
  intro row _
  simp only [Function.comp]
  split_ifs <;> rfl

theorem Pending.retryOutboxEntry {store : NamedLocalStoreDb}
    {entries : List NamedLocalStoreDb.OutboxEntry} (h : Pending crates store entries)
    (now seq : Nat) : Pending crates (store.retryOutboxEntry now seq) entries := by
  refine h.congr fun entry _ row hrow hread => ?_
  refine ⟨_, List.mem_map.mpr ⟨row, hrow, rfl⟩, ?_⟩
  split_ifs
  · exact ⟨hread.seq, hread.op, hread.referee, hread.referrer⟩
  · exact hread

theorem Pending.enqueueEdgeTx {store : NamedLocalStoreDb}
    {entries : List NamedLocalStoreDb.OutboxEntry} (h : Pending crates store entries)
    (now : Nat) (op : EdgeOp) (referee referrer : String) :
    Pending crates (NamedLocalStoreDb.enqueueEdgeTx now op referrer store referee) entries :=
  h.congr fun _ _ row hrow hread => ⟨row, List.mem_append.mpr (Or.inl hrow), hread⟩

/-- The entry that is deleted is none of the ones still to come. -/
theorem Pending.completeOutboxEntry {store : NamedLocalStoreDb}
    {entry : NamedLocalStoreDb.OutboxEntry} {rest : List NamedLocalStoreDb.OutboxEntry}
    (h : Pending crates store (entry :: rest)) :
    Pending crates (store.completeOutboxEntry entry.seq) rest := by
  refine h.tail.congr fun e he row hrow hread => ⟨row, ?_, hread⟩
  refine List.mem_filter.mpr ⟨hrow, ?_⟩
  have hne := (List.pairwise_cons.mp h.distinct).1 e he
  rw [hread.seq] at hne
  simpa using hne.symm

/-- An enqueue appends the same write to the outbox and to the history. -/
theorem Inv.enqueue {s : OutboxSender} (h : Inv crates receiver s) (op : EdgeOp)
    (referee referrer : ObjId) (batchSize : Nat) :
    Inv crates receiver (s.step crates batchSize (.enqueue op referee referrer)) := by
  have hlog := NamedLocalStoreDb.edgeLog_foldl_enqueueEdgeTx s.store s.clock op
    (referrer.toString crates) [referee.toString crates]
  simp only [List.foldl_cons, List.foldl_nil, List.map_cons, List.map_nil] at hlog
  constructor
  · show replay s.receiver.hasRef (NamedLocalStoreDb.edgeLog
      (NamedLocalStoreDb.enqueueEdgeTx s.clock op (referrer.toString crates) s.store
        (referee.toString crates))) =
      replay receiver.hasRef ((s.enqueued ++ [s.enqueuedRow crates op referee referrer]).map
        edgeWrite)
    rw [hlog, List.map_append, replay_append, replay_append, h.settled]
    rfl
  · intro row hrow
    rcases List.mem_append.mp hrow with hold | hnew
    · exact h.texts row hold
    · rw [List.mem_singleton.mp hnew]
      exact ⟨⟨referee, rfl⟩, referrer, rfl⟩
  · refine List.pairwise_append.mpr ⟨h.sorted, List.pairwise_singleton _ _, ?_⟩
    intro r hr r' hr'
    rw [List.mem_singleton.mp hr']
    exact h.below r hr
  · intro r hr
    show r.seq < s.store.edgeOutbox.next + 1
    rcases List.mem_append.mp hr with hold | hnew
    · exact Nat.lt_succ_of_lt (h.below r hold)
    · rw [List.mem_singleton.mp hnew]
      exact Nat.lt_succ_self _
  · have hphase := h.phase
    unfold PhaseInv at hphase ⊢
    show match s.phase with
      | .delivering entries => Pending crates _ entries
      | .completing entry rest => Pending crates _ (entry :: rest) ∧ InOrder crates _ entry ∧ _
      | .retrying entry rest => Pending crates _ (entry :: rest)
    split at hphase
    · exact hphase.enqueueEdgeTx s.clock op _ _
    · next entry rest _ =>
      obtain ⟨hpending, horder, happlied⟩ := hphase
      refine ⟨hpending.enqueueEdgeTx s.clock op _ _, ?_, happlied⟩
      intro r hr hlt
      rcases List.mem_append.mp hr with hold | hnew
      · exact horder r hold hlt
      · -- The new row is younger than every pending entry.
        obtain ⟨row, hrow, hread⟩ := hpending.read entry (by simp)
        have hbelow := s.store.edgeOutbox.below row hrow
        rw [List.mem_singleton.mp hnew] at hlt
        have hnext : s.store.edgeOutbox.next < row.seq := hread.seq ▸ hlt
        omega
    · exact hphase.enqueueEdgeTx s.clock op _ _

/-- A delivery, with or without success. -/
theorem Inv.deliver {s : OutboxSender} (h : Inv crates receiver s) {batchSize : Nat}
    {outcome : DeliverOutcome}
    (hallowed : s.deliversOutOfOrder crates (.deliver outcome) = false) :
    Inv crates receiver (s.step crates batchSize (.deliver outcome)) := by
  have hphase := h.phase
  unfold PhaseInv at hphase
  cases hat : s.phase with
  | completing entry rest =>
      rw [step_of_not_next crates batchSize (by rw [hat]; rfl)]
      exact h
  | retrying entry rest =>
      rw [step_of_not_next crates batchSize (by rw [hat]; rfl)]
      exact h
  | delivering entries =>
      rw [hat] at hphase
      cases entries with
      | nil =>
          rw [step_of_not_next crates batchSize (by rw [hat]; rfl)]
          exact h
      | cons entry rest =>
          obtain ⟨row, hrow, hread⟩ := hphase.read entry (by simp)
          have hsettled := h.settled_applyEdge hrow hread s.clock
          cases outcome with
          | ok =>
              rw [step_deliver_ok crates batchSize hat]
              refine ⟨hsettled, h.texts, h.sorted, h.below, hphase, ?_, ?_⟩
              · intro r hr hlt hreferee hreferrer
                by_contra hop
                simp only [deliversOutOfOrder, hat, List.any_eq_false] at hallowed
                exact hallowed r hr (by simp [hlt, hreferee, hreferrer, hop])
              · show (s.receiver.applyEdge crates s.clock entry.msg).hasRef _ = _
                rw [NamedLocalStoreDb.hasRef_applyEdge, Function.update_self]
          | errBeforeApply =>
              rw [step_deliver_errBeforeApply crates batchSize hat]
              exact ⟨h.settled, h.texts, h.sorted, h.below, hphase⟩
          | errAfterApply =>
              rw [step_deliver_errAfterApply crates batchSize hat]
              exact ⟨hsettled, h.texts, h.sorted, h.below, hphase⟩

theorem Inv.complete {s : OutboxSender} (h : Inv crates receiver s) (batchSize : Nat)
    (ok : Bool) : Inv crates receiver (s.step crates batchSize (.complete ok)) := by
  have hphase := h.phase
  unfold PhaseInv at hphase
  cases hat : s.phase with
  | delivering entries =>
      rw [step_of_not_next crates batchSize (by rw [hat]; rfl)]
      exact h
  | retrying entry rest =>
      rw [step_of_not_next crates batchSize (by rw [hat]; rfl)]
      exact h
  | completing entry rest =>
      rw [hat] at hphase
      obtain ⟨hpending, horder, happlied⟩ := hphase
      obtain ⟨row, hrow, hread⟩ := hpending.read entry (by simp)
      rw [step_complete crates batchSize hat]
      cases ok with
      | true =>
          refine ⟨h.settled_completeOutboxEntry hrow hread horder happlied, ?_, h.sorted,
            h.below, hpending.completeOutboxEntry⟩
          intro r hr
          exact h.texts r (List.mem_filter.mp hr).1
      | false => exact ⟨h.settled, h.texts, h.sorted, h.below, hpending.tail⟩

theorem Inv.retry {s : OutboxSender} (h : Inv crates receiver s) (batchSize : Nat)
    (ok : Bool) : Inv crates receiver (s.step crates batchSize (.retry ok)) := by
  have hphase := h.phase
  unfold PhaseInv at hphase
  cases hat : s.phase with
  | delivering entries =>
      rw [step_of_not_next crates batchSize (by rw [hat]; rfl)]
      exact h
  | completing entry rest =>
      rw [step_of_not_next crates batchSize (by rw [hat]; rfl)]
      exact h
  | retrying entry rest =>
      rw [hat] at hphase
      rw [step_retry crates batchSize hat]
      cases ok with
      | true =>
          refine ⟨?_, ?_, h.sorted, h.below, hphase.tail.retryOutboxEntry s.clock entry.seq⟩
          · show replay _ (NamedLocalStoreDb.edgeLog (s.store.retryOutboxEntry _ _)) = _
            rw [edgeLog_retryOutboxEntry]
            exact h.settled
          · intro r hr
            obtain ⟨old, hold, rfl⟩ := List.mem_map.mp hr
            split_ifs
            · exact h.texts old hold
            · exact h.texts old hold
      | false => exact ⟨h.settled, h.texts, h.sorted, h.below, hphase.tail⟩

theorem Inv.step (laws : crates.Lawful) {s : OutboxSender} {action : Action}
    (hallowed : s.deliversOutOfOrder crates action = false) (batchSize : Nat)
    (h : Inv crates receiver s) : Inv crates receiver (s.step crates batchSize action) := by
  cases action with
  | enqueue op referee referrer => exact h.enqueue op referee referrer batchSize
  | tick secs => exact ⟨h.settled, h.texts, h.sorted, h.below, h.phase⟩
  | fetch ok =>
      cases ok with
      | false => exact h
      | true =>
          cases hat : s.phase with
          | completing entry rest =>
              rw [step_of_not_next crates batchSize (by rw [hat]; rfl)]
              exact h
          | retrying entry rest =>
              rw [step_of_not_next crates batchSize (by rw [hat]; rfl)]
              exact h
          | delivering entries =>
              cases entries with
              | cons entry rest =>
                  rw [step_of_not_next crates batchSize (by rw [hat]; rfl)]
                  exact h
              | nil =>
                  rw [step_fetch crates batchSize hat]
                  exact ⟨h.settled, h.texts, h.sorted, h.below,
                    pending_fetchOutboxReady laws h.texts s.clock batchSize⟩
  | deliver outcome => exact h.deliver hallowed
  | complete ok => exact h.complete batchSize ok
  | retry ok => exact h.retry batchSize ok

end Steps

/-- Delivery order.  In a run in which no entry is delivered with success ahead
of an older pending one that says the opposite, once the outbox is empty the
receiver has what applying all messages in order gives: the youngest message for
a pair decides it. -/
theorem drained_receiver_eq_last_message (crates : Crates) (laws : crates.Lawful)
    (batchSize : Nat) (receiver : NamedLocalStoreDb) (actions : List Action)
    (hallowed : Along (step crates batchSize)
      (fun s action => s.deliversOutOfOrder crates action = false) (init receiver) actions)
    (hdrained : (run (step crates batchSize) (init receiver)
      actions).store.edgeOutbox.rows = []) :
    (run (step crates batchSize) (init receiver) actions).receiver.hasRef =
        replay receiver.hasRef
          ((run (step crates batchSize) (init receiver) actions).enqueued.map edgeWrite) ∧
      ∀ row ∈ (run (step crates batchSize) (init receiver) actions).enqueued,
        (∀ r ∈ (run (step crates batchSize) (init receiver) actions).enqueued,
          r.referee = row.referee → r.referrer = row.referrer → r.seq ≤ row.seq) →
        ((∃ r ∈ (run (step crates batchSize) (init receiver)
          actions).receiver.incomingRefs.rows,
            r.referee = row.referee ∧ r.referrer = row.referrer) ↔ row.op = .add) := by
  have h : Inv crates receiver (run (step crates batchSize) (init receiver) actions) :=
    run_invariant (fun _ _ hstep h => h.step laws hstep batchSize) hallowed
      (inv_init crates receiver)
  generalize run (step crates batchSize) (init receiver) actions = s at h hdrained ⊢
  have hresult : s.receiver.hasRef = replay receiver.hasRef (s.enqueued.map edgeWrite) := by
    rw [← h.settled]
    unfold NamedLocalStoreDb.edgeLog
    rw [hdrained]
    rfl
  refine ⟨hresult, ?_⟩
  intro row hrow hlast
  obtain ⟨before, after, hsplit⟩ := List.append_of_mem hrow
  have hvalue : s.receiver.hasRef (row.referee, row.referrer) = decide (row.op = .add) := by
    rw [hresult, hsplit, List.map_append, List.map_cons]
    apply replay_of_last
    intro write hwrite hkey
    obtain ⟨r, hr, rfl⟩ := List.mem_map.mp hwrite
    have hsorted := h.sorted
    rw [hsplit, List.pairwise_append, List.pairwise_cons] at hsorted
    have hlt := hsorted.2.1.1 r hr
    have hle := hlast r (by rw [hsplit]; simp [hr]) (congrArg Prod.fst hkey)
      (congrArg Prod.snd hkey)
    omega
  rw [← NamedLocalStoreDb.hasRef_iff, hvalue, decide_eq_true_iff]

/-- A referee and a referrer. -/
def sampleReferee : ObjId := ⟨"pkg", [1]⟩

/-- The parent of `sampleReferee`. -/
def sampleReferrer : ObjId := ⟨"pkg", [2]⟩

/-- An add is delivered twice because its completion fails, then the remove. -/
def redelivered : List Action :=
  [.enqueue .add sampleReferee sampleReferrer, .fetch true, .deliver .ok, .complete false,
    .enqueue .remove sampleReferee sampleReferrer, .fetch true, .deliver .ok, .complete true,
    .deliver .ok, .complete true]

/-- The receiver ends without the reference, as the remove says. -/
theorem redelivered_ends_removed :
    (run (step sampleCrates 64) (init NamedLocalStoreDb.empty)
        redelivered).store.edgeOutbox.rows = [] ∧
      ∀ row ∈ (run (step sampleCrates 64) (init NamedLocalStoreDb.empty)
          redelivered).enqueued,
        (∀ r ∈ (run (step sampleCrates 64) (init NamedLocalStoreDb.empty)
            redelivered).enqueued,
          r.referee = row.referee → r.referrer = row.referrer → r.seq ≤ row.seq) →
        ((∃ r ∈ (run (step sampleCrates 64) (init NamedLocalStoreDb.empty)
          redelivered).receiver.incomingRefs.rows,
            r.referee = row.referee ∧ r.referrer = row.referrer) ↔ row.op = .add) :=
  ⟨by decide,
    (drained_receiver_eq_last_message sampleCrates sampleCrates_lawful 64
      NamedLocalStoreDb.empty redelivered (by decide) (by decide)).2⟩

/-- The delivery of an add fails once; the remove that follows is ready at once
and goes first. -/
def overtaken : List Action :=
  [.enqueue .add sampleReferee sampleReferrer, .fetch true, .deliver .errBeforeApply,
    .retry true, .enqueue .remove sampleReferee sampleReferrer, .fetch true, .deliver .ok,
    .complete true, .tick 2, .fetch true, .deliver .ok, .complete true]

/-- The outbox is drained, the last message was the remove, and the receiver has
the reference. -/
theorem overtaken_ends_added :
    (run (step sampleCrates 64) (init NamedLocalStoreDb.empty) overtaken).store.edgeOutbox.rows
        = [] ∧
      (run (step sampleCrates 64) (init NamedLocalStoreDb.empty) overtaken).enqueued.map
        (fun r => (r.seq, r.op, r.referee, r.referrer)) =
          [(1, .add, "pkg:01", "pkg:02"), (2, .remove, "pkg:01", "pkg:02")] ∧
      (run (step sampleCrates 64) (init NamedLocalStoreDb.empty)
        overtaken).receiver.incomingRefs.rows.map (fun r => (r.referee, r.referrer)) =
          [("pkg:01", "pkg:02")] := by
  decide

end OutboxSender

end NamedStore
end CyfsNdn
