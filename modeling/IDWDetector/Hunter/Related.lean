import IDWDetector.Hunter.Floats

namespace IDWDetector.Hunter

open Go

variable {flows : List TokenFlow} {flow : TokenFlow}

theorem TokenFlow.less_weakOrder : WeakOrder TokenFlow.less where
  asymm := by
    intro a b
    simp only [less, decide_eq_true_eq, decide_eq_false_iff_not]
    omega
  trans := by
    intro a b c
    simp only [less, decide_eq_false_iff_not]
    omega

def through (this : TokenFlow) (flows : List TokenFlow) : List TokenFlow := flows.filter fun flow => !flow.after this

theorem totalsUpTo_split (this : TokenFlow) (flows : List TokenFlow) : ∃ read rest, flows = read ++ rest ∧
    (∀ flow ∈ read, flow.after this = false) ∧ (∀ stop, rest.head? = some stop → stop.after this = true) ∧
    ∀ totals, totalsUpTo this flows totals = (read.getLast?.map TokenFlow.totals).getD totals := by
  induction flows with
  | nil => exact ⟨[], [], rfl, nofun, nofun, fun _ => rfl⟩
  | cons flow flows ih =>
    cases later : flow.after this with
    | true =>
      refine ⟨[], flow :: flows, rfl, nofun, ?_, ?_⟩
      · intro stop head
        cases head
        exact later
      · intro totals
        rw [totalsUpTo, if_pos later]
        rfl
    | false =>
      obtain ⟨read, rest, rfl, unread, stops, result⟩ := ih
      refine ⟨flow :: read, rest, rfl, List.forall_mem_cons.mpr ⟨later, unread⟩, stops, ?_⟩
      intro totals
      rw [totalsUpTo, later, if_neg Bool.false_ne_true, result, List.getLast?_cons]
      cases read.getLast? with
      | none => rfl
      | some last => rfl

section Reading

variable (this : TokenFlow) (flows : List TokenFlow)

/-- A flow may be behind one at which the loop stops: it is in a later block, or there is a later transaction in its
    block. -/
def CutOff (flow : TokenFlow) : Prop :=
  this.blockNumber < flow.blockNumber ∨ flow.blockNumber = this.blockNumber ∧
    ∃ other ∈ flows, other.blockNumber = this.blockNumber ∧ this.txIndex < other.txIndex

instance (flow : TokenFlow) : Decidable (CutOff this flows flow) :=
  inferInstanceAs (Decidable (_ ∨ _ ∧ ∃ other ∈ flows, _))

/-- Some arrangement of the flows by block makes the loop read this flow last. -/
def MayBeLast (flow : TokenFlow) : Prop :=
  flow.after this = false ∧ ∀ later ∈ flows, flow.blockNumber < later.blockNumber → CutOff this flows later

def MayBeNone : Prop := ∀ flow ∈ flows, CutOff this flows flow

variable {this flows} {b a : TokenFlow} {rest read : List TokenFlow} {last : TokenFlow}

theorem TokenFlow.after_iff : flow.after this = true ↔
    this.blockNumber < flow.blockNumber ∨ flow.blockNumber = this.blockNumber ∧ this.txIndex < flow.txIndex := by
  simp [after]

theorem TokenFlow.less_eq_false : a.less b = false ↔ b.blockNumber ≤ a.blockNumber := by
  simp [less]

theorem cutOff_of_unread (sorted : Sorted TokenFlow.less flows (read ++ rest))
    (stops : ∀ stop, rest.head? = some stop → stop.after this = true) (member : flow ∈ rest) :
    CutOff this flows flow := by
  obtain ⟨-, ordered, -⟩ := List.pairwise_append.mp sorted.ordered
  cases rest with
  | nil => cases member
  | cons stop rest =>
    have listed : stop ∈ flows := sorted.perm.subset (List.mem_append_right _ List.mem_cons_self)
    have order : stop.blockNumber ≤ flow.blockNumber := by
      rcases List.mem_cons.mp member with rfl | later
      · exact le_refl _
      · exact TokenFlow.less_eq_false.mp (List.rel_of_pairwise_cons ordered later)
    rcases TokenFlow.after_iff.mp (stops stop rfl) with above | ⟨same, later⟩
    · exact .inl (by omega)
    · rcases Int.lt_or_eq_of_le (same ▸ order) with above | equal
      · exact .inl above
      · exact .inr ⟨equal.symm, stop, listed, same, later⟩

theorem mayBeLast_of_read (sorted : Sorted TokenFlow.less flows ((read ++ [last]) ++ rest))
    (unread : ∀ flow ∈ read ++ [last], flow.after this = false)
    (stops : ∀ stop, rest.head? = some stop → stop.after this = true) : MayBeLast this flows last := by
  refine ⟨unread last (by simp), ?_⟩
  intro later listed above
  rcases List.mem_append.mp (sorted.perm.symm.subset listed) with earlier | rest'
  · rcases List.mem_append.mp earlier with before | same
    · have ordered := (List.pairwise_append.mp
        (List.pairwise_append.mp sorted.ordered).1).2.2 later before last (by simp)
      rw [TokenFlow.less_eq_false] at ordered
      omega
    · cases List.mem_singleton.mp same
      omega
  · exact cutOff_of_unread sorted stops rest'

def lastTie (this last flow : TokenFlow) : Nat :=
  if flow = last then 1
  else if flow.blockNumber = last.blockNumber then if flow.after this then 2 else 0
  else if flow.after this then 0 else 1

def noneTie (this flow : TokenFlow) : Nat := if flow.after this then 0 else 1

theorem tie_order {tie : TokenFlow → Nat} (ordered : tieLess TokenFlow.less tie b a = false) :
    a.blockNumber < b.blockNumber ∨ a.blockNumber = b.blockNumber ∧ tie a ≤ tie b := by
  rw [tieLess_eq_false, TokenFlow.less_eq_false, TokenFlow.less, decide_eq_true_eq] at ordered
  omega

theorem totalsUpTo_of_mayBeLast (member : last ∈ flows) (mayBe : MayBeLast this flows last) :
    ∃ result, Sorted TokenFlow.less flows result ∧ totalsUpTo this result 0 = last.totals := by
  obtain ⟨early, cut⟩ := mayBe
  have sorted := (TokenFlow.less_weakOrder.tieLess (lastTie this last)).stableSort_sorted flows
  obtain ⟨read, rest, split, unread, stops, result⟩ := totalsUpTo_split this
    (stableSort (tieLess TokenFlow.less (lastTie this last)) flows)
  refine ⟨_, sorted.of_tie, ?_⟩
  rw [split] at sorted
  obtain ⟨inRead, inRest, across⟩ := List.pairwise_append.mp sorted.ordered
  have tieLast : lastTie this last last = 1 := if_pos rfl
  -- The flow is read: in its block, those at which the loop stops come after it.
  have isRead : last ∈ read := by
    rcases List.mem_append.mp (sorted.perm.symm.subset member) with before | beyond
    · exact before
    · cases rest with
      | nil => cases beyond
      | cons stop rest =>
        have stopLate := stops stop rfl
        have other : last ≠ stop := by
          rintro rfl
          rw [early] at stopLate
          cases stopLate
        have order := tie_order (List.rel_of_pairwise_cons inRest ((List.mem_cons.mp beyond).resolve_left other))
        have notLater := mt TokenFlow.after_iff.mpr (Bool.eq_false_iff.mp early)
        have stopLater := TokenFlow.after_iff.mp stopLate
        have sameBlock : stop.blockNumber = last.blockNumber := by omega
        have tieStop : lastTie this last stop = 2 := by
          simp [lastTie, Ne.symm other, sameBlock, stopLate]
        omega
  obtain ⟨init, final, rfl⟩ := (List.eq_nil_or_concat read).resolve_left (List.ne_nil_of_mem isRead)
  rw [List.concat_eq_append] at isRead inRead unread across sorted
  have finalEarly := unread final (by simp)
  have finalNotLater := mt TokenFlow.after_iff.mpr (Bool.eq_false_iff.mp finalEarly)
  -- It is read last: the others of its block come before it, and so does a later transaction in the next.
  have isFinal : final = last := by
    by_contra other
    have before : last ∈ init := by
      rcases List.mem_append.mp isRead with before | same
      · exact before
      · exact absurd (List.mem_singleton.mp same).symm other
    have order := tie_order ((List.pairwise_append.mp inRead).2.2 last before final (by simp))
    by_cases sameBlock : final.blockNumber = last.blockNumber
    · have tieFinal : lastTie this last final = 0 := by
        simp [lastTie, other, sameBlock, finalEarly]
      omega
    · have above : last.blockNumber < final.blockNumber := by omega
      have listed : final ∈ flows := sorted.perm.subset (by simp)
      rcases cut final listed above with beyond | ⟨sameAsThis, stop, stopListed, stopBlock, stopTx⟩
      · exact finalNotLater (.inl beyond)
      · have stopLate : stop.after this = true := TokenFlow.after_iff.mpr (.inr ⟨stopBlock, stopTx⟩)
        have inRest' : stop ∈ rest := by
          rcases List.mem_append.mp (sorted.perm.symm.subset stopListed) with isRead' | beyond
          · rw [unread stop isRead'] at stopLate
            cases stopLate
          · exact beyond
        have order' := tie_order (across final (by simp) stop inRest')
        have tieFinal : lastTie this last final = 1 := by
          simp [lastTie, other, sameBlock, finalEarly]
        have stopOther : stop.blockNumber ≠ last.blockNumber := by omega
        have tieStop : lastTie this last stop = 0 := by
          have different : stop ≠ last := fun same => stopOther (congrArg TokenFlow.blockNumber same)
          simp [lastTie, different, stopOther, stopLate]
        omega
  rw [result, List.concat_eq_append, List.getLast?_append]
  simp [isFinal]

theorem totalsUpTo_of_mayBeNone (mayBe : MayBeNone this flows) :
    ∃ result, Sorted TokenFlow.less flows result ∧ totalsUpTo this result 0 = 0 := by
  have sorted := (TokenFlow.less_weakOrder.tieLess (noneTie this)).stableSort_sorted flows
  obtain ⟨read, rest, split, unread, stops, result⟩ := totalsUpTo_split this
    (stableSort (tieLess TokenFlow.less (noneTie this)) flows)
  refine ⟨_, sorted.of_tie, ?_⟩
  rw [split] at sorted
  cases read with
  | nil => rw [result]; rfl
  | cons first read =>
    have firstEarly := unread first List.mem_cons_self
    have notLater := mt TokenFlow.after_iff.mpr (Bool.eq_false_iff.mp firstEarly)
    have listed : first ∈ flows := sorted.perm.subset List.mem_cons_self
    rcases mayBe first listed with beyond | ⟨sameAsThis, stop, stopListed, stopBlock, stopTx⟩
    · exact absurd (.inl beyond) notLater
    · have stopLate : stop.after this = true := TokenFlow.after_iff.mpr (.inr ⟨stopBlock, stopTx⟩)
      have other : stop ≠ first := by
        rintro rfl
        rw [firstEarly] at stopLate
        cases stopLate
      have behind := (List.mem_cons.mp (sorted.perm.symm.subset stopListed)).resolve_left other
      have order := tie_order (List.rel_of_pairwise_cons sorted.ordered behind)
      simp only [noneTie, firstEarly, stopLate, if_true, Bool.false_eq_true, if_false] at order
      omega

/-- Every arrangement by block gives the same totals exactly if every flow that can be read last has them. -/
theorem totalsUpTo_eq_iff (this : TokenFlow) (flows : List TokenFlow) (totals : Totals) :
    (∀ result, Sorted TokenFlow.less flows result → totalsUpTo this result 0 = totals) ↔
    (∀ flow ∈ flows, MayBeLast this flows flow → flow.totals = totals) ∧ (MayBeNone this flows → totals = 0) := by
  constructor
  · intro same
    constructor
    · intro flow member mayBe
      obtain ⟨result, sorted, own⟩ := totalsUpTo_of_mayBeLast member mayBe
      exact own.symm.trans (same result sorted)
    · intro mayBe
      obtain ⟨result, sorted, none⟩ := totalsUpTo_of_mayBeNone mayBe
      exact (same result sorted).symm.trans none
  · rintro ⟨last, none⟩ result sorted
    obtain ⟨read, rest, rfl, unread, stops, own⟩ := totalsUpTo_split this result
    rw [own]
    rcases List.eq_nil_or_concat read with rfl | ⟨init, final, rfl⟩
    · symm
      apply none
      intro flow member
      exact cutOff_of_unread sorted stops (sorted.perm.symm.subset member)
    · rw [List.concat_eq_append] at sorted unread ⊢
      rw [List.getLast?_append]
      exact last final (sorted.perm.subset (by simp)) (mayBeLast_of_read sorted unread stops)

end Reading

section Ledger

def TokenFlow.NotBefore (second first : TokenFlow) : Prop :=
  first.blockNumber < second.blockNumber ∨ first.blockNumber = second.blockNumber ∧ first.txIndex ≤ second.txIndex

variable {convert : TokenTx → Option ℚ}

theorem Enters.pairwise {transfers : List TokenTx} (all : List.Forall₂ (Enters convert) transfers flows)
    (ordered : transfers.Pairwise fun a b => b.less a = false) :
    flows.Pairwise fun first second => second.NotBefore first := by
  induction all with
  | nil => exact .nil
  | cons enters rest ih =>
    obtain ⟨head, tail⟩ := List.pairwise_cons.mp ordered
    refine List.pairwise_cons.mpr ⟨?_, ih tail⟩
    intro flow member
    obtain ⟨tokenTx, listed, enters'⟩ := exists_of_forall₂ rest member
    have order := mt TokenTx.less_iff.mpr (Bool.eq_false_iff.mp (head tokenTx listed))
    rw [TokenFlow.NotBefore, enters.blockNumber, enters.txIndex, enters'.blockNumber, enters'.txIndex]
    omega

theorem partsOf_filter {keep : TokenFlow → Bool} (rest : ∀ flow ∈ flows, keep flow = true ∨ flow.part = 0) :
    partsOf (flows.filter keep) = partsOf flows := by
  induction flows with
  | nil => rfl
  | cons flow flows ih =>
    obtain ⟨head, tail⟩ := List.forall_mem_cons.mp rest
    have same := ih tail
    rw [partsOf, partsOf] at same
    rw [List.filter_cons, partsOf, partsOf]
    split_ifs with dropped
    · rw [List.map_cons, List.map_cons, List.sum_cons, List.sum_cons, same]
    · rw [List.map_cons, List.sum_cons, same, head.resolve_left dropped, zero_add]

theorem partsOf_through {list : List TokenTx} (ordered : list.Pairwise fun a b => b.less a = false) {this : TokenFlow}
    {before after : List TokenFlow} (split : flowList convert list = before ++ flow :: after)
    (early : flow.after this = false) :
    partsOf (through this (flowList convert list)) = flow.totals + partsOf (through this after) := by
  have kept : ∀ other ∈ before ++ [flow], (!other.after this) = true ∨ other.part = 0 := by
    rw [flowList_eq] at split
    cases before with
    | nil =>
      intro other member
      rw [List.mem_singleton.mp member, early]
      exact .inl rfl
    | cons first before =>
      obtain ⟨rfl, tail⟩ := List.cons.inj split
      have inOrder := Enters.pairwise (flowsFrom_enters [] list) (ordered.filter (counted convert))
      rw [tail] at inOrder
      have notLater := mt TokenFlow.after_iff.mpr (Bool.eq_false_iff.mp early)
      rw [List.cons_append, List.forall_mem_cons]
      refine ⟨.inr rfl, ?_⟩
      intro other member
      refine .inl (Bool.not_eq_true' _ |>.mpr (Bool.eq_false_iff.mpr fun late => ?_))
      have later := TokenFlow.after_iff.mp late
      rcases List.mem_append.mp member with inside | same
      · have order := (List.pairwise_append.mp inOrder).2.2 other inside flow List.mem_cons_self
        rw [TokenFlow.NotBefore] at order
        omega
      · rw [List.mem_singleton.mp same] at later
        exact notLater later
  have apart : before ++ flow :: after = (before ++ [flow]) ++ after := by simp
  rw [split, apart, through, List.filter_append, partsOf_append, partsOf_filter kept,
    flowList_totals list split]
  rfl

theorem totals_add_right_eq {first second : Totals} : first = first + second ↔ second = 0 := by
  rw [eq_comm, add_eq_left]

theorem totalsUpTo_exact_iff {list : List TokenTx} (ordered : list.Pairwise fun a b => b.less a = false)
    (this : TokenFlow) :
    (∀ result, Sorted TokenFlow.less (flowList convert list) result →
      totalsUpTo this result 0 = partsOf (through this (flowList convert list))) ↔
    (∀ before flow after, flowList convert list = before ++ flow :: after →
      MayBeLast this (flowList convert list) flow → partsOf (through this after) = 0) ∧
    (MayBeNone this (flowList convert list) → partsOf (through this (flowList convert list)) = 0) := by
  rw [totalsUpTo_eq_iff]
  refine and_congr_left' ⟨?_, ?_⟩
  · intro last before flow after split mayBe
    have same := last flow (by simp [split]) mayBe
    rw [partsOf_through ordered split mayBe.1] at same
    exact totals_add_right_eq.mp same
  · intro rest flow member mayBe
    obtain ⟨before, after, split⟩ := List.append_of_mem member
    rw [partsOf_through ordered split mayBe.1, rest before flow after split mayBe, add_zero]

end Ledger

theorem transGen_sorted_iff {result : List TokenFlow} :
    Relation.TransGen (Sorted TokenFlow.less) flows result ↔ Sorted TokenFlow.less flows result := by
  constructor
  · intro steps
    induction steps with
    | single sorted => exact sorted
    | tail _ again ih => exact ih.trans again
  · exact .single

/-- The exact sums of a user's deposits and withdrawals of a token up to the transaction of a flow. -/
def TxExtractor.sumsThrough (x : TxExtractor) (sort : List TokenTx → List TokenTx) (order : Address → List Address)
    (user tokenAddress : Address) (this : TokenFlow) : Totals :=
  let flows := ((x.generateUserFlow sort order).getD user .empty).getD tokenAddress []
  (amounts .deposit (through this flows), amounts .withdraw (through this flows))

/-- What `GetRelatedTokenFlow` takes from the list of a user is the exact sum up to a flow, in every order that the
    sorts may leave, exactly if the amounts up to each entry that can be read last, added with rounding, give it. -/
theorem related_totals_exact_iff (x : TxExtractor) (sort : List TokenTx → List TokenTx) (order : Address → List Address)
    (user tokenAddress : Address) (flows : List FloatFlow) (this : TokenFlow)
    (held : ((x.generateUserFloats sort order).getD user .empty).lookup tokenAddress = some flows) :
    (∀ result, Relation.TransGen (Sorted TokenFlow.less) (flows.map FloatFlow.value) result →
      totalsUpTo this result 0 = x.sumsThrough sort order user tokenAddress this) ↔
    (∀ before flow after, flows = before ++ flow :: after → MayBeLast this (flows.map FloatFlow.value) flow.value →
      floatTotals (before ++ [flow]) = x.sumsThrough sort order user tokenAddress this) ∧
    (MayBeNone this (flows.map FloatFlow.value) → x.sumsThrough sort order user tokenAddress this = 0) := by
  simp only [transGen_sorted_iff]
  rw [totalsUpTo_eq_iff]
  refine and_congr_left' ⟨?_, ?_⟩
  · intro last before flow after split mayBe
    rw [← TxExtractor.generateUserFloats_totals held split]
    exact last flow.value (List.mem_map_of_mem (by simp [split])) mayBe
  · intro rest value member mayBe
    obtain ⟨flow, listed, rfl⟩ := List.mem_map.mp member
    obtain ⟨before, after, split⟩ := List.append_of_mem listed
    rw [TxExtractor.generateUserFloats_totals held split]
    exact rest before flow after split mayBe

section TwoUsers

open TxExtractor

/-- The withdrawal is the only flow of its block. -/
theorem related_totals_exact_twoUsers : ∃ flows,
    ((twoUsers.generateUserFloats (stableSort TokenTx.less) fun _ => [0x60]).getD 0x10 .empty).lookup 0x60 =
      some flows ∧
    ∀ result, Relation.TransGen (Sorted TokenFlow.less) (flows.map FloatFlow.value) result →
      totalsUpTo twoUserWithdrawal result 0 =
        twoUsers.sumsThrough (stableSort TokenTx.less) (fun _ => [0x60]) 0x10 0x60 twoUserWithdrawal := by
  let entries : List TokenFlow := [.zero, ⟨1, 0, 1, .deposit, 1, 0⟩, twoUserWithdrawal]
  obtain ⟨flows, held, here⟩ := (Option.any_eq_true _ _).mp (show
    (((twoUsers.generateUserFloats (stableSort TokenTx.less) fun _ => [0x60]).getD 0x10 .empty).lookup 0x60).any
      (fun flows => decide (flows.map FloatFlow.value = entries ∧ floatTotals flows =
        twoUsers.sumsThrough (stableSort TokenTx.less) (fun _ => [0x60]) 0x10 0x60 twoUserWithdrawal)) = true by
    decide +kernel)
  obtain ⟨values, totals⟩ := of_decide_eq_true here
  have uncut : ∀ flow ∈ entries, ¬CutOff twoUserWithdrawal entries flow := by decide +kernel
  have blocks : entries.Pairwise fun first second => first.blockNumber < second.blockNumber := by decide +kernel
  rw [← values] at uncut blocks
  refine ⟨flows, held, (related_totals_exact_iff twoUsers _ _ 0x10 0x60 flows twoUserWithdrawal held).mpr ⟨?_, ?_⟩⟩
  · intro before flow after split mayBe
    cases after with
    | nil => rw [← split, totals]
    | cons later after =>
      have listed : later.value ∈ flows.map FloatFlow.value := List.mem_map_of_mem (by simp [split])
      rw [split, List.map_append, List.map_cons, List.map_cons] at blocks
      have above := List.rel_of_pairwise_cons (List.pairwise_append.mp blocks).2.1 List.mem_cons_self
      exact absurd (mayBe.2 later.value listed above) (uncut later.value listed)
  · intro mayBe
    have first : TokenFlow.zero ∈ flows.map FloatFlow.value := by
      rw [values]
      exact List.mem_cons_self
    exact absurd (mayBe .zero first) (uncut .zero first)

end TwoUsers

def oneBlock : TxExtractor where
  proxyABI := {0x50}
  userTokenTxMap := Map.empty.set 0x20 (Map.empty.set 0x60
    [⟨2, 0, 0, 0x20, 0x50, 1, 0x60, .deposit⟩, ⟨2, 1, 0, 0x50, 0x20, 5, 0x60, .withdraw⟩])

/-- If the deposit comes after the withdrawal, the withdrawal is not counted. -/
theorem oneBlock_withdrawal_lost : ∃ flows result this,
    ((oneBlock.generateUserFloats (stableSort TokenTx.less) fun _ => [0x60]).getD 0x20 .empty).lookup 0x60 =
      some flows ∧
    this ∈ flows.map FloatFlow.value ∧ Sorted TokenFlow.less (flows.map FloatFlow.value) result ∧
    totalsUpTo this result 0 = (1, 0) ∧
    oneBlock.sumsThrough (stableSort TokenTx.less) (fun _ => [0x60]) 0x20 0x60 this = (1, 5) := by
  obtain ⟨flows, held, here⟩ := (Option.any_eq_true _ _).mp (show
    (((oneBlock.generateUserFloats (stableSort TokenTx.less) fun _ => [0x60]).getD 0x20 .empty).lookup 0x60).any
      (fun flows => decide (flows.map FloatFlow.value =
        [.zero, ⟨2, 0, 1, .deposit, 1, 0⟩, ⟨2, 1, 5, .withdraw, 1, 5⟩])) = true by decide +kernel)
  have values := of_decide_eq_true here
  refine ⟨flows, [.zero, ⟨2, 1, 5, .withdraw, 1, 5⟩, ⟨2, 0, 1, .deposit, 1, 0⟩], ⟨2, 1, 5, .withdraw, 1, 5⟩, held, ?_⟩
  rw [values]
  exact ⟨by decide +kernel, ⟨(List.Perm.swap _ _ _).cons _, by decide +kernel⟩, by decide +kernel, by decide +kernel⟩

end IDWDetector.Hunter
