/-
What the workers of migrate have in common, and what each of them can
count on.

Every worker reads the sources and writes to a file of its own, which it
has created: the files there were when the pool was started, and those
other attempts have created, it leaves alone (`Pooled.put`). To the
database each brings what concerns its attempt, and nothing else
(`Pooled.worked`). So whatever the others do, an attempt finds its files,
its rows and its temp as it left them (`Rely`).
-/
import PhotoBridge.Pipeline.Proofs.Handles
import PhotoBridge.Pipeline.Proofs.MigrateKeeps

namespace PhotoBridge

open Concurrent MigrationService

-- ================================================================ the world

namespace MigrationService.World

variable (w : World) (a : Bytes)

/-- The files an attempt has open. -/
def handles : List Nat := (w.tables a).map OpenFile.file

/-- The world with other tables of the database. -/
def stored (db : Db) : World := { w with machine := { w.machine with db } }

/-- What an attempt has done to the disk. -/
def done (disk : Disk) : World := w.put a { w.view a with disk }

theorem put_view : w.put a (w.view a) = w :=
  congrArg (World.mk w.machine) (Function.update_eq_self a w.tables)

theorem put_stored (db : Db) :
    w.put a { w.view a with db } = w.stored db :=
  congrArg (World.mk _) (Function.update_eq_self a w.tables)

/-- An attempt finds its rows, its files and every name as it left them. -/
structure Rely (w w' : World) : Prop where
  table : w'.tables a = w.tables a
  files : ∀ index ∈ w.handles a,
    w'.machine.disk.files[index]? = w.machine.disk.files[index]?
  targets : ∀ name index, w.machine.disk.targets name = some index →
    w'.machine.disk.targets name = some index
  rows : w.machine.db.Spares a w'.machine.db

/-- What a step of an attempt, or of the producer, owes the others. -/
structure Owes (t : Option Bytes) (w w' : World) : Prop where
  others : ∀ a, some a ≠ t → Rely a w w'
  kept : ∀ id, w.machine.db.Attempted id → w'.machine.db.Attempted id
  only : t ≠ none → ∀ id, w'.machine.db.Attempted id → w.machine.db.Attempted id
  drained : w.machine.db.Drained → w'.machine.db.Drained

variable {w a}

theorem Rely.refl (a : Bytes) (w : World) : Rely a w w :=
  ⟨rfl, fun _ _ => rfl, fun _ _ h => h, .refl _ _⟩

theorem Rely.trans {w' w'' : World} (h : Rely a w w') (h' : Rely a w' w'') :
    Rely a w w'' where
  table := h'.table.trans h.table
  files index hindex := by
    refine (h'.files index ?_).trans (h.files index hindex)
    unfold handles
    rw [h.table]
    exact hindex
  targets name index hindex := h'.targets name index (h.targets name index hindex)
  rows := h.rows.trans h'.rows

theorem Owes.refl (t : Option Bytes) (w : World) : Owes t w w :=
  ⟨fun a _ => .refl a w, fun _ h => h, fun _ _ h => h, fun h => h⟩

theorem done_handles (disk : Disk) : (w.done a disk).handles a = disk.handles :=
  congrArg (List.map OpenFile.file) (Function.update_self ..)

theorem done_table (disk : Disk) : (w.done a disk).tables a = disk.opened :=
  Function.update_self ..

/-- What an attempt has left is what it finds. -/
theorem done_view (disk : Disk) : ((w.done a disk).view a).disk = disk :=
  congrArg (fun opened => { disk with opened }) (done_table disk)

theorem done_view_self : w.done a (w.view a).disk = w := put_view w a

private theorem done_others {b : Bytes} (hne : b ≠ a) (disk : Disk) :
    (w.done a disk).tables b = w.tables b := Function.update_of_ne hne ..

end MigrationService.World

namespace Site

open MigrationService.World

variable (σ : Site) (s : Session) (base : Machine)

/-- A file that was created by this attempt, since the pool was started. -/
def Owns (w : MigrationService.World) (a : Bytes) (index : Nat) : Prop :=
  base.disk.files.length ≤ index ∧ index ∈ w.handles a

/-- The temp of a receipt is a synced copy, and belongs to its attempt. -/
def Held (w : MigrationService.World) (row : ReceiptRow) : Prop :=
  σ.Staged w.machine.disk row ∧ ∃ index,
    w.machine.disk.targets row.tempPath = some index
      ∧ Owns base w row.attemptId index

/-- What holds as long as the pool is at work on what there was when it
was started. -/
structure Pooled (w : MigrationService.World) : Prop where
  kept : σ.Kept w.machine
  length : base.disk.files.length ≤ w.machine.disk.files.length
  files : ∀ index < base.disk.files.length,
    w.machine.disk.files[index]? = base.disk.files[index]?
  targets : ∀ name index, base.disk.targets name = some index →
    w.machine.disk.targets name = some index
  entries : ∀ name index, w.machine.disk.targets name = some index →
    base.disk.targets name = some index
      ∨ base.disk.targets name = none ∧ σ.IsTemp name
  handles : ∀ a, ∀ index ∈ w.handles a, index < w.machine.disk.files.length
  apart : ∀ a b index, Owns base w a index → Owns base w b index → a = b
  epoch : w.machine.db.currentEpoch? σ.artifact.planId = some s.epoch
  since : base.db.Since w.machine.db
  held : ∀ row ∈ w.machine.db.receipts, w.machine.db.Pending row →
    σ.Held base w row

/-- The protocol of the pool. -/
def shares (J : Interface) : Protocol (Option Bytes) J MigrationService.World where
  inv := σ.Pooled s base
  rely t w w' := ∀ a, t = some a → Rely a w w'
  guar t _ w w' := Owes t w w'
  rely_refl _ w a _ := .refl a w
  rely_trans h h' a ht := (h a ht).trans (h' a ht)
  compat hne h a ht := h.others a fun heq => hne (ht.trans heq)

variable {σ s base} {w : MigrationService.World} {a : Bytes} {d' : Disk}

theorem Starts.pooled (h : σ.Starts s base) : σ.Pooled s base (.start base) where
  kept := h.kept
  length := Nat.le_refl _
  files _ _ := rfl
  targets _ _ h := h
  entries _ _ h := .inl h
  handles := nofun
  apart := nofun
  epoch := h.epoch
  since := ⟨fun _ h => h, fun _ h => .inl h⟩
  held := by
    rintro row - ⟨task, htask, -, hruns⟩
    exact absurd hruns.1 (h.idle task htask)

/-- There are no fewer files than there were. -/
theorem Intact.length_le {d : Disk} (h : σ.Intact d) :
    σ.start.disk.files.length ≤ d.files.length := by
  by_contra hlt
  obtain ⟨g, hg, -⟩ := h.files d.files.length _
    (List.getElem?_eq_getElem (Nat.not_le.1 hlt))
  exact absurd (List.getElem?_eq_some_iff.1 hg).1 (Nat.lt_irrefl _)

-- ================================================================= the disk

/-- What an attempt can do to the disk, as long as it has no receipt: files
of its own, temps that are new, and descriptors. -/
structure Private (σ : Site) (base : Machine) (w : MigrationService.World) (a : Bytes)
    (d' : Disk) : Prop where
  sources : d'.sources = w.machine.disk.sources
  length : w.machine.disk.files.length ≤ d'.files.length
  files : ∀ index < w.machine.disk.files.length, ¬Owns base w a index →
    d'.files[index]? = w.machine.disk.files[index]?
  targets : ∀ name index, w.machine.disk.targets name = some index →
    d'.targets name = some index
  entries : ∀ name index, d'.targets name = some index →
    w.machine.disk.targets name = some index
      ∨ w.machine.disk.targets name = none ∧ σ.IsTemp name
        ∧ w.machine.disk.files.length ≤ index ∧ index < d'.files.length
  handles : ∀ index ∈ d'.handles, index < base.disk.files.length
    ∨ Owns base w a index
    ∨ w.machine.disk.files.length ≤ index ∧ index < d'.files.length

namespace Pooled

/-- A file the attempt does not own is as it was. -/
theorem carries (hp : Private σ base w a d') :
    w.machine.disk.Carries (fun index => index < w.machine.disk.files.length
      ∧ ¬Owns base w a index) (w.done a d').machine.disk where
  sources := hp.sources
  length := hp.length
  files index f hkept hf :=
    ⟨f, (hp.files index hkept.1 hkept.2).trans hf, rfl, id⟩

private theorem old_ne (index : Nat) (h : index < base.disk.files.length) :
    ¬Owns base w a index := fun howns => absurd howns.1 (Nat.not_le.2 h)

/-- The name of a final that is there has been there. -/
theorem final_old (h : σ.Pooled s base w) (hbase : σ.Starts s base)
    {row : ReceiptRow} (hrow : row ∈ w.machine.db.receipts) {index : Nat}
    (hindex : w.machine.disk.targets row.finalPath = some index) :
    index < base.disk.files.length := by
  rcases h.entries _ _ hindex with hold | ⟨-, taskId, attemptId, htemp⟩
  · exact hbase.kept.intact.sound .target _ index hold
  · obtain ⟨asset, hasset, hrecords⟩ := h.kept.ledger.recorded row hrow
    exact absurd (hrecords.finalPath.symm.trans htemp)
      (σ.generated asset hasset taskId attemptId)

theorem carried (h : σ.Pooled s base w) (hbase : σ.Starts s base)
    (hp : Private σ base w a d')
    (hfree : ∀ row ∈ w.machine.db.receipts, row.attemptId ≠ a) :
    σ.Kept (w.done a d').machine
      ∧ ∀ row ∈ w.machine.db.receipts, w.machine.db.Pending row →
        σ.Staged (w.done a d').machine.disk row := by
  have hc := carries hp
  have hstaged : ∀ row ∈ w.machine.db.receipts, w.machine.db.Pending row →
      σ.Staged (w.done a d').machine.disk row := by
    intro row hrow hpending
    obtain ⟨hs, index, hindex, howns⟩ := h.held row hrow hpending
    refine hs.carried hc (fun i hi => ?_) ?_
    · cases hindex.symm.trans hi
      refine ⟨h.handles _ _ howns.2, fun hmine => hfree row hrow ?_⟩
      exact h.apart _ _ _ howns hmine
    · exact (hp.targets _ _ hindex).trans hindex.symm
  refine ⟨⟨h.kept.planFiles, ?_, ?_⟩, hstaged⟩
  · have hold : ∀ index < σ.start.disk.files.length,
        index < base.disk.files.length := fun index hlt =>
      Nat.lt_of_lt_of_le hlt hbase.kept.intact.length_le
    refine h.kept.intact.step hc (fun index hlt => ⟨?_, old_ne index (hold index hlt)⟩)
      (fun name index hindex => hp.targets _ _
        (h.kept.intact.targets name index hindex)) fun name index hnone hindex => ?_
    · exact Nat.lt_of_lt_of_le (hold index hlt) h.length
    · rcases hp.entries name index hindex with hwas | ⟨-, htemp, hlarge, hlt⟩
      · refine h.kept.intact.entry hc hnone hwas ?_
        rcases h.entries name index hwas with hthere | ⟨-, htemp⟩
        · have hlt := hbase.kept.intact.sound .target name index hthere
          exact .inl ⟨Nat.lt_of_lt_of_le hlt h.length, old_ne index hlt⟩
        · exact .inr htemp
      · exact ⟨hlt, Nat.le_trans h.kept.intact.length_le hlarge, .inl htemp⟩
  · refine h.kept.ledger.mono (fun row hrow hpending _ =>
      .inl (hstaged row hrow hpending)) fun row hrow hl => ?_
    refine hl.carried hc (fun index hindex => ?_) fun index hindex =>
      hp.targets _ _ hindex
    have hlt := h.final_old hbase hrow hindex
    exact ⟨Nat.lt_of_lt_of_le hlt h.length, old_ne index hlt⟩

/-- What an attempt does to the disk is its own business. -/
theorem put (h : σ.Pooled s base w) (hbase : σ.Starts s base)
    (hp : Private σ base w a d')
    (hfree : ∀ row ∈ w.machine.db.receipts, row.attemptId ≠ a) :
    σ.Pooled s base (w.done a d') ∧ Owes (some a) w (w.done a d') := by
  obtain ⟨hkept, hstaged⟩ := h.carried hbase hp hfree
  have hsame : ∀ b index, b ≠ a →
      (Owns base (w.done a d') b index ↔ Owns base w b index) := by
    intro b index hne
    unfold Owns MigrationService.World.handles
    rw [done_others hne]
  have hmine : ∀ index, Owns base (w.done a d') a index → Owns base w a index
      ∨ w.machine.disk.files.length ≤ index := by
    rintro index ⟨hlarge, hmem⟩
    rw [done_handles] at hmem
    rcases hp.handles index hmem with hlt | howns | ⟨hnew, -⟩
    · exact absurd hlarge (Nat.not_le.2 hlt)
    · exact .inl howns
    · exact .inr hnew
  have hclash : ∀ b index, b ≠ a → Owns base (w.done a d') a index →
      ¬Owns base (w.done a d') b index := by
    intro b index hne howns hother
    rw [hsame b index hne] at hother
    rcases hmine index howns with hold | hnew
    · exact hne (h.apart _ _ _ hother hold)
    · exact absurd (h.handles b index hother.2) (Nat.not_lt.2 hnew)
  constructor
  · refine ⟨hkept, Nat.le_trans h.length hp.length, fun index hlt => ?_,
      fun name index hindex => hp.targets _ _ (h.targets name index hindex),
      fun name index hindex => ?_, fun b index hindex => ?_,
      fun b c index hb hc => ?_, h.epoch, h.since, fun row hrow hpending => ?_⟩
    · exact (hp.files index (Nat.lt_of_lt_of_le hlt h.length)
        (old_ne index hlt)).trans (h.files index hlt)
    · rcases hp.entries name index hindex with hwas | ⟨hnone, htemp, -⟩
      · exact h.entries name index hwas
      · refine .inr ⟨?_, htemp⟩
        cases hbefore : base.disk.targets name with
        | none => rfl
        | some i => exact nomatch hnone.symm.trans (h.targets name i hbefore)
    · by_cases hb : b = a
      · subst hb
        rw [done_handles] at hindex
        rcases hp.handles index hindex with hlt | ⟨-, howns⟩ | ⟨-, hlt⟩
        · exact Nat.lt_of_lt_of_le hlt (Nat.le_trans h.length hp.length)
        · exact Nat.lt_of_lt_of_le (h.handles b index howns) hp.length
        · exact hlt
      · unfold MigrationService.World.handles at hindex
        rw [done_others hb] at hindex
        exact Nat.lt_of_lt_of_le (h.handles b index hindex) hp.length
    · by_cases hba : b = a
      · by_cases hca : c = a
        · rw [hba, hca]
        · subst hba
          exact absurd hc (hclash c index hca hb)
      · by_cases hca : c = a
        · subst hca
          exact absurd hb (hclash b index hba hc)
        · exact h.apart b c index ((hsame b index hba).1 hb)
            ((hsame c index hca).1 hc)
    · obtain ⟨-, index, hindex, howns⟩ := h.held row hrow hpending
      exact ⟨hstaged row hrow hpending, index, hp.targets _ _ hindex,
        (hsame _ _ (hfree row hrow)).2 howns⟩
  · refine ⟨fun b hb => ?_, fun _ hid => hid, fun _ _ hid => hid, fun hd => hd⟩
    have hne : b ≠ a := fun heq => hb (congrArg some heq)
    refine ⟨done_others hne d', fun index hindex => ?_, hp.targets, .refl _ _⟩
    refine hp.files index (h.handles b index hindex) fun howns => hne ?_
    exact h.apart b a index ⟨howns.1, hindex⟩ howns

/-- Calls on files the attempt has open, and may write to. -/
theorem handled (h : σ.Pooled s base w) (hbase : σ.Starts s base) {index : Nat}
    (hhandled : (w.view a).disk.Handled index d') (howns : Owns base w a index)
    (hfree : ∀ row ∈ w.machine.db.receipts, row.attemptId ≠ a) :
    σ.Pooled s base (w.done a d') ∧ Owes (some a) w (w.done a d') := by
  have htargets : d'.targets = w.machine.disk.targets := hhandled.targets
  have hlength : d'.files.length = w.machine.disk.files.length := hhandled.length
  refine h.put hbase ⟨hhandled.sources, hlength.ge, fun i _ hno => ?_,
    fun name i hi => ?_, fun name i hi => .inl ?_, fun i hi => ?_⟩ hfree
  · refine hhandled.files i fun heq => hno ?_
    rw [heq]
    exact howns
  · rw [htargets]
    exact hi
  · rw [← htargets]
    exact hi
  · have hold : i ∈ w.handles a := by
      rw [hhandled.handles] at hi
      exact hi
    rcases Nat.lt_or_ge i base.disk.files.length with hlt | hge
    · exact .inl hlt
    · exact .inr (.inl ⟨hge, hold⟩)

/-- A file was opened that was there, or is the attempt's own. -/
theorem opening (h : σ.Pooled s base w) (hbase : σ.Starts s base) {index : Nat}
    (hindex : index < base.disk.files.length ∨ Owns base w a index)
    (hfree : ∀ row ∈ w.machine.db.receipts, row.attemptId ≠ a) :
    σ.Pooled s base (w.done a ((w.view a).disk.opening index))
      ∧ Owes (some a) w (w.done a ((w.view a).disk.opening index)) := by
  refine h.put hbase ⟨rfl, Nat.le_refl _, fun _ _ _ => rfl, fun _ _ hi => hi,
    fun _ _ hi => .inl hi, fun i hi => ?_⟩ hfree
  obtain ⟨o, ho, rfl⟩ := List.mem_map.1 hi
  rcases List.mem_append.1 ho with hold | hlast
  · rcases Nat.lt_or_ge o.file base.disk.files.length with hlt | hge
    · exact .inl hlt
    · exact .inr (.inl ⟨hge, List.mem_map_of_mem hold⟩)
  · rw [List.mem_singleton.1 hlast]
    exact hindex.imp_right .inl

/-- A temp was created, under a name that was free. -/
theorem created (h : σ.Pooled s base w) (hbase : σ.Starts s base) {name : Bytes}
    {f : DiskFile} (htemp : σ.IsTemp name)
    (hnone : w.machine.disk.targets name = none)
    (hfree : ∀ row ∈ w.machine.db.receipts, row.attemptId ≠ a)
    (hd' : d' = { w.machine.disk with
      files := w.machine.disk.files ++ [f]
      targets := Function.update w.machine.disk.targets name
        (some w.machine.disk.files.length)
      opened := w.tables a ++ [⟨w.machine.disk.files.length, 0⟩] }) :
    (σ.Pooled s base (w.done a d') ∧ Owes (some a) w (w.done a d'))
      ∧ Owns base (w.done a d') a w.machine.disk.files.length := by
  subst hd'
  have hlength : (w.machine.disk.files ++ [f]).length
      = w.machine.disk.files.length + 1 := List.length_append
  refine ⟨h.put hbase ⟨rfl, ?_, fun index hlt _ => ?_, fun other index hi => ?_,
    fun other index hi => ?_, fun index hi => ?_⟩ hfree, h.length, ?_⟩
  · show _ ≤ (w.machine.disk.files ++ [f]).length
    omega
  · exact List.getElem?_append_left hlt
  · refine (Function.update_of_ne (fun heq => ?_) ..).trans hi
    rw [heq, hnone] at hi
    cases hi
  · show w.machine.disk.targets other = some index ∨ _ ∧ _ ∧ _
      ∧ index < (w.machine.disk.files ++ [f]).length
    change Function.update w.machine.disk.targets name _ other = some index at hi
    by_cases heq : other = name
    · subst heq
      rw [Function.update_self] at hi
      cases hi
      exact .inr ⟨hnone, htemp, Nat.le_refl _, by omega⟩
    · rw [Function.update_of_ne heq] at hi
      exact .inl hi
  · obtain ⟨o, ho, rfl⟩ := List.mem_map.1 hi
    show _ ∨ _ ∨ _ ∧ o.file < (w.machine.disk.files ++ [f]).length
    rcases List.mem_append.1 ho with hold | hlast
    · rcases Nat.lt_or_ge o.file base.disk.files.length with hlt | hge
      · exact .inl hlt
      · exact .inr (.inl ⟨hge, List.mem_map_of_mem hold⟩)
    · cases List.mem_singleton.1 hlast
      exact .inr (.inr ⟨Nat.le_refl _, hlength ▸ Nat.lt_succ_self _⟩)
  · rw [done_handles]
    exact List.mem_map_of_mem (List.mem_append_right _ (List.mem_singleton_self _))

-- ============================================================= the database

/-- What an attempt brings to the database. -/
theorem worked (h : σ.Pooled s base w) (hbase : σ.Starts s base) {db' : Db}
    (hworked : w.machine.db.Worked a db')
    (hledger : σ.Ledger (σ.Staged w.machine.disk) (σ.Landed w.machine.disk) db')
    (hheld : ∀ row ∈ db'.receipts, db'.Pending row → σ.Held base w row) :
    σ.Pooled s base (w.stored db') ∧ Owes (some a) w (w.stored db') := by
  refine ⟨⟨h.kept.stored rfl rfl hledger, h.length, h.files, h.targets, h.entries,
    h.handles, h.apart, (hworked.epoch _).trans h.epoch,
    hworked.since hbase.idle h.since, hheld⟩, fun b hb => ?_,
    fun _ => hworked.attempted.2, fun _ _ => hworked.attempted.1, hworked.drained⟩
  have hne : b ≠ a := fun heq => hb (congrArg some heq)
  exact ⟨rfl, fun _ _ => rfl, fun _ _ hi => hi, hworked.spares hne⟩

/-- A change that stores no receipt. -/
theorem held_calm (h : σ.Pooled s base w) {db' : Db}
    (hcalm : Db.Calm (fun _ => False) w.machine.db db') :
    ∀ row ∈ db'.receipts, db'.Pending row → σ.Held base w row := by
  intro row hrow hpending
  have hrow' : row ∈ w.machine.db.receipts := hcalm.receipts ▸ hrow
  exact h.held row hrow' (h.kept.ledger.pending hcalm hrow' hpending)

/-- A claim. -/
theorem claimed (h : σ.Pooled s base w) {db' : Db} {key : Bytes × Bytes}
    (hclaimed : w.machine.db.Claimed key a db')
    (hcalm : Db.Calm (fun _ => False) w.machine.db db')
    (hhistory : σ.History db') :
    σ.Pooled s base (w.stored db') ∧ Owes none w (w.stored db') := by
  refine ⟨⟨h.kept.stored rfl rfl (h.kept.ledger.calm hcalm hhistory
    fun _ => False.elim), h.length, h.files, h.targets, h.entries, h.handles,
    h.apart, (hclaimed.epoch _).trans h.epoch, hclaimed.since h.since,
    h.held_calm hcalm⟩, fun b _ => ?_, fun _ hid => hclaimed.attempted.2 (.inl hid),
    fun hno => absurd rfl hno, hclaimed.drained⟩
  exact ⟨rfl, fun _ _ => rfl, fun _ _ hi => hi, hclaimed.spares b⟩

end Pooled

end Site

end PhotoBridge
