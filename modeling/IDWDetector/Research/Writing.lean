import IDWDetector.Research.Reading

open Rlp Go Machine

namespace IDWDetector

variable {addr : Address} {order : List Address} {s : SubstateRLP} {block tx : Uint64} {w : Write}
  {alloc : SubstateAlloc} {allocRLP : SubstateAllocRLP}

theorem SubstateAlloc.getD_eq_some {account : SubstateAccount} :
    alloc.getD addr none = some account ↔ alloc.lookup addr = some (some account) := by
  rw [Map.getD]
  cases alloc.lookup addr with
  | none => simp
  | some entry => simp

variable {keccak : Bytes → Hash} {getCode : Hash → Except Panic Bytes} {second first : Trace}

theorem newAccounts_ok {accounts : List SubstateAccountRLP} :
    newAccounts keccak alloc order = .ok accounts ↔
      List.Forall₂ (fun addr saRLP => ∃ account, alloc.lookup addr = some (some account) ∧
        saRLP = newSubstateAccountRLP keccak account) order accounts := by
  induction order generalizing accounts with
  | nil => simp [newAccounts, eq_comm]
  | cons addr rest ih =>
    rw [newAccounts, List.forall₂_cons_left_iff]
    cases found : alloc.getD addr none with
    | none =>
      constructor
      · rintro ⟨⟩
      · rintro ⟨_, _, ⟨account, present, -⟩, -⟩
        cases found.symm.trans (SubstateAlloc.getD_eq_some.mpr present)
    | some account =>
      have present := SubstateAlloc.getD_eq_some.mp found
      constructor
      · intro built
        obtain ⟨others, builtOthers, result⟩ := bind_ok.mp built
        cases result
        exact ⟨_, others, ⟨account, present, rfl⟩, ih.mp builtOthers, rfl⟩
      · rintro ⟨_, others, ⟨account', present', rfl⟩, related, rfl⟩
        cases present.symm.trans present'
        exact bind_ok.mpr ⟨others, ih.mpr related, rfl⟩

theorem newSubstateAllocRLP_ok :
    newSubstateAllocRLP keccak alloc = .ok allocRLP ↔
      allocRLP.addresses = alloc.sortedKeys ∧ newAccounts keccak alloc alloc.sortedKeys = .ok allocRLP.accounts := by
  obtain ⟨addresses, accounts⟩ := allocRLP
  simp only [newSubstateAllocRLP, bind_ok, Except.ok.injEq, SubstateAllocRLP.mk.injEq]
  constructor
  · rintro ⟨_, built, rfl, rfl⟩
    exact ⟨rfl, built⟩
  · rintro ⟨rfl, built⟩
    exact ⟨accounts, built, rfl, rfl⟩

theorem newSubstateRLP_ok {order : List Uint64} {substate : Substate} :
    newSubstateRLP keccak order substate = .ok s ↔
      newSubstateAllocRLP keccak substate.inputAlloc = .ok s.inputAlloc ∧
      newSubstateAllocRLP keccak substate.outputAlloc = .ok s.outputAlloc ∧
      s.env = newSubstateEnvRLP order substate.env ∧ s.message = newSubstateMessageRLP keccak substate.message ∧
      s.result = newSubstateResultRLP substate.result := by
  obtain ⟨input, output, env, message, result⟩ := s
  simp only [newSubstateRLP, bind_ok, Except.ok.injEq, SubstateRLP.mk.injEq]
  constructor
  · rintro ⟨_, builtInput, _, builtOutput, rfl, rfl, rfl, rfl, rfl⟩
    exact ⟨builtInput, builtOutput, rfl, rfl, rfl⟩
  · rintro ⟨builtInput, builtOutput, rfl, rfl, rfl⟩
    exact ⟨input, builtInput, output, builtOutput, rfl, rfl, rfl, rfl, rfl⟩

theorem account_of_built (built : newSubstateAllocRLP keccak alloc = .ok allocRLP) {saRLP : SubstateAccountRLP}
    (member : saRLP ∈ allocRLP.accounts) :
    ∃ addr account, alloc.lookup addr = some (some account) ∧ saRLP = newSubstateAccountRLP keccak account := by
  have related := newAccounts_ok.mp (newSubstateAllocRLP_ok.mp built).2
  obtain ⟨index, inside, rfl⟩ := List.mem_iff_getElem.mp member
  obtain ⟨account, present, same⟩ := related.get (related.length_eq ▸ inside) inside
  exact ⟨_, account, present, same⟩

theorem allocated_of_built (built : newSubstateAllocRLP keccak alloc = .ok allocRLP) (member : addr ∈ alloc.keys) :
    ∃ account, alloc.lookup addr = some (some account) := by
  have related := newAccounts_ok.mp (newSubstateAllocRLP_ok.mp built).2
  have sorted := (alloc.sortedKeys_enumerates.mem_iff addr).mpr member
  obtain ⟨index, inside, rfl⟩ := List.mem_iff_getElem.mp sorted
  obtain ⟨account, present, -⟩ := related.get inside (related.length_eq ▸ inside)
  exact ⟨account, present⟩

def Substate.HasCode (s : Substate) (code : Bytes) : Prop :=
  (∃ addr account, s.inputAlloc.lookup addr = some (some account) ∧ account.code = code) ∨
  (∃ addr account, s.outputAlloc.lookup addr = some (some account) ∧ account.code = code) ∨
  (s.message.toAddr = none ∧ s.message.data = code)

theorem setAccounts_code {addresses : List Address} {accounts : List (Option SubstateAccountRLP)}
    {alloc result : SubstateAlloc} (set : setAccounts getCode addresses accounts alloc = .ok result)
    {account : SubstateAccount} (found : result.lookup addr = some (some account)) :
    (∃ hash, getCode hash = .ok account.code) ∨ alloc.lookup addr = some (some account) := by
  fun_induction setAccounts with
  | case1 accounts alloc =>
    cases set
    exact .inr found
  | case2 => cases set
  | case3 => cases set
  | case4 first addresses saRLP accounts alloc ih =>
    obtain ⟨sa, read, rest⟩ := bind_ok.mp set
    obtain ⟨code, known, built⟩ := bind_ok.mp read
    cases built
    rcases ih _ rest with own | earlier
    · exact .inl own
    · rcases Map.of_lookup_set earlier with ⟨-, ⟨⟩⟩ | earlier
      · exact .inl ⟨saRLP.codeHash, known⟩
      · exact .inr earlier

theorem Substate.HasCode.found {substate : Substate} {code : Bytes} (has : substate.HasCode code)
    (read : Substate.setRLP getCode s.var = .ok substate) :
    ∃ hash, getCode hash = .ok code := by
  obtain ⟨input, output, message, -, -⟩ := setRLP_ok_iff.mp read
  rcases has with ⟨addr, account, present, rfl⟩ | ⟨addr, account, present, rfl⟩ | ⟨creation, rfl⟩
  · exact (setAccounts_code input present).resolve_right nofun
  · exact (setAccounts_code output present).resolve_right nofun
  · obtain ⟨data, known, built⟩ := bind_ok.mp message
    rw [← Except.ok.inj built] at creation ⊢
    cases hash : s.message.initCodeHash with
    | none =>
      simp only at creation
      rw [creation, hash] at known
      cases known
    | some hash' =>
      simp only at creation
      rw [creation, hash] at known
      exact ⟨hash', known⟩

theorem Trace.mem_andThen (member : w ∈ (first.andThen second).writes) :
    w ∈ first.writes ∨ w ∈ second.writes := by
  unfold andThen at member
  split at member
  · exact .inl member
  · exact List.mem_append.mp member

theorem Trace.andThen_of_quiet (quiet : first.panic = none) :
    first.andThen second = ⟨first.writes ++ second.writes, second.panic⟩ := by
  rw [andThen, quiet]

theorem Trace.andThen_assoc (first second third : Trace) :
    (first.andThen second).andThen third = first.andThen (second.andThen third) := by
  obtain ⟨writes, panic⟩ := first
  obtain ⟨writes', panic'⟩ := second
  cases panic with
  | some panic => rfl
  | none =>
    cases panic' with
    | some panic => rfl
    | none => simp [andThen]

namespace SubstateDB

theorem putCodes_writes {alloc : SubstateAlloc} (member : w ∈ (putCodes keccak alloc order).writes) :
    ∃ addr account, alloc.lookup addr = some (some account) ∧ w ∈ putCode keccak account.code := by
  induction order with
  | nil => cases member
  | cons addr rest ih =>
    rw [putCodes] at member
    cases found : alloc.getD addr none with
    | none =>
      rw [found] at member
      cases member
    | some account =>
      rw [found] at member
      rcases Trace.mem_andThen member with own | later
      · exact ⟨addr, account, SubstateAlloc.getD_eq_some.mp found, own⟩
      · exact ih later

theorem putCodes_complete (keccak : Bytes → Hash) {alloc : SubstateAlloc}
    (present : ∀ addr ∈ order, ∃ account, alloc.lookup addr = some (some account)) :
    (putCodes keccak alloc order).panic = none ∧ ∀ addr ∈ order, ∀ account,
      alloc.lookup addr = some (some account) →
        ∀ w ∈ putCode keccak account.code, w ∈ (putCodes keccak alloc order).writes := by
  induction order with
  | nil => simp [putCodes]
  | cons addr rest ih =>
    obtain ⟨account, here⟩ := present addr List.mem_cons_self
    obtain ⟨quiet, complete⟩ := ih fun addr member => present addr (List.mem_cons_of_mem _ member)
    rw [putCodes, SubstateAlloc.getD_eq_some.mpr here]
    refine ⟨quiet, ?_⟩
    intro addr' member account' there w written
    simp only [Trace.andThen, List.mem_append]
    rcases List.mem_cons.mp member with rfl | later
    · cases here.symm.trans there
      exact .inl written
    · exact .inr (complete addr' later account' there w written)

def putAllCodes (keccak : Bytes → Hash) (orders : RangeOrders) (substate : Substate) : Trace :=
  (putCodes keccak substate.inputAlloc orders.inputAlloc).andThen <|
    (putCodes keccak substate.outputAlloc orders.outputAlloc).andThen <|
      putInitCode keccak substate.message

theorem putSubstate_eq (keccak : Bytes → Hash) (orders : RangeOrders) (block tx : Uint64) (substate : Substate) :
    putSubstate keccak orders block tx substate =
      (putAllCodes keccak orders substate).andThen (putValue keccak orders.blockHashes block tx substate) := by
  rw [putAllCodes, Trace.andThen_assoc, Trace.andThen_assoc]
  rfl

variable {orders : RangeOrders} {substate : Substate}

theorem putAllCodes_writes (member : w ∈ (putAllCodes keccak orders substate).writes) :
    ∃ code, substate.HasCode code ∧ w ∈ putCode keccak code := by
  rcases Trace.mem_andThen member with input | member
  · obtain ⟨addr, account, present, written⟩ := putCodes_writes input
    exact ⟨account.code, .inl ⟨addr, account, present, rfl⟩, written⟩
  rcases Trace.mem_andThen member with output | init
  · obtain ⟨addr, account, present, written⟩ := putCodes_writes output
    exact ⟨account.code, .inr (.inl ⟨addr, account, present, rfl⟩), written⟩
  · rw [putInitCode] at init
    by_cases creation : substate.message.toAddr = none
    · rw [if_pos creation] at init
      exact ⟨substate.message.data, .inr (.inr ⟨creation, rfl⟩), init⟩
    · rw [if_neg creation] at init
      cases init

theorem putAllCodes_complete (enumerate : orders.Enumerate substate)
    (built : newSubstateRLP keccak orders.blockHashes substate = .ok s) :
    (putAllCodes keccak orders substate).panic = none ∧ ∀ code, substate.HasCode code →
      ∀ w ∈ putCode keccak code, w ∈ (putAllCodes keccak orders substate).writes := by
  obtain ⟨builtInput, builtOutput, -⟩ := newSubstateRLP_ok.mp built
  have inputKeys : ∀ addr ∈ orders.inputAlloc, ∃ account, substate.inputAlloc.lookup addr = some (some account) :=
    fun addr member => allocated_of_built builtInput ((enumerate.inputAlloc.mem_iff addr).mp member)
  have outputKeys : ∀ addr ∈ orders.outputAlloc, ∃ account, substate.outputAlloc.lookup addr = some (some account) :=
    fun addr member => allocated_of_built builtOutput ((enumerate.outputAlloc.mem_iff addr).mp member)
  obtain ⟨quietInput, inputs⟩ := putCodes_complete keccak inputKeys
  obtain ⟨quietOutput, outputs⟩ := putCodes_complete keccak outputKeys
  have writes : putAllCodes keccak orders substate =
      ⟨(putCodes keccak substate.inputAlloc orders.inputAlloc).writes ++
        ((putCodes keccak substate.outputAlloc orders.outputAlloc).writes ++
          (putInitCode keccak substate.message).writes), none⟩ := by
    rw [putAllCodes, Trace.andThen_of_quiet quietInput, Trace.andThen_of_quiet quietOutput]
    rfl
  rw [writes]
  refine ⟨rfl, ?_⟩
  intro code has w written
  simp only [List.mem_append]
  rcases has with ⟨addr, account, present, rfl⟩ | ⟨addr, account, present, rfl⟩ | ⟨creation, rfl⟩
  · have member : addr ∈ orders.inputAlloc :=
      (enumerate.inputAlloc.mem_iff addr).mpr ((Map.mem_keys_iff _ _).mpr ⟨_, present⟩)
    exact .inl (inputs addr member account present w written)
  · have member : addr ∈ orders.outputAlloc :=
      (enumerate.outputAlloc.mem_iff addr).mpr ((Map.mem_keys_iff _ _).mpr ⟨_, present⟩)
    exact .inr (.inl (outputs addr member account present w written))
  · rw [putInitCode, if_pos creation]
    exact .inr (.inr written)

theorem putValue_ok {order : List Uint64} {value : Bytes} (built : newSubstateRLP keccak order substate = .ok s)
    (encoded : SubstateRLP.codec.encodeToBytes s = .ok value) :
    putValue keccak order block tx substate = ⟨[.put (stage1SubstateKey block tx) value], none⟩ := by
  rw [putValue, built]
  simp only [encoded]

theorem putValue_writes {order : List Uint64} (member : w ∈ (putValue keccak order block tx substate).writes) :
    ∃ s value, newSubstateRLP keccak order substate = .ok s ∧ SubstateRLP.codec.encodeToBytes s = .ok value := by
  unfold putValue at member
  split at member
  · cases member
  · rename_i s built
    split at member
    · cases member
    · rename_i value encoded
      exact ⟨s, value, built, encoded⟩

theorem putSubstate_ok (quiet : (putSubstate keccak orders block tx substate).panic = none) :
    ∃ s value, newSubstateRLP keccak orders.blockHashes substate = .ok s ∧
      SubstateRLP.codec.encodeToBytes s = .ok value ∧
      (putSubstate keccak orders block tx substate).writes =
        (putAllCodes keccak orders substate).writes ++ [.put (stage1SubstateKey block tx) value] := by
  rw [putSubstate_eq] at quiet ⊢
  cases codes : (putAllCodes keccak orders substate).panic with
  | some panic =>
    rw [Trace.andThen, codes] at quiet
    cases quiet
  | none =>
    rw [Trace.andThen_of_quiet codes] at quiet ⊢
    unfold putValue at quiet ⊢
    split at quiet
    · cases quiet
    · rename_i s built
      split at quiet
      · cases quiet
      · rename_i value encoded
        exact ⟨s, value, built, encoded, rfl⟩

theorem lookup_writeAll_iff {writes : List Write} (puts : ∀ w ∈ writes, ∃ key value, w = .put key value)
    (agree : ∀ key value value', .put key value ∈ writes → .put key value' ∈ writes → value = value')
    (key value : Bytes) :
    (writeAll ⟨.empty⟩ writes).backend.lookup key = some value ↔ .put key value ∈ writes := by
  induction writes using List.reverseRecOn with
  | nil => simp [writeAll]
  | append_singleton earlier last ih =>
    obtain ⟨key', value', rfl⟩ := puts last (by simp)
    have before := ih (fun w member => puts w (List.mem_append_left _ member))
      fun key value value' first second =>
        agree key value value' (List.mem_append_left _ first) (List.mem_append_left _ second)
    rw [writeAll, List.foldl_append]
    simp only [List.foldl_cons, List.foldl_nil, write, Map.lookup_set, List.mem_append, List.mem_singleton,
      Write.put.injEq]
    by_cases same : key = key'
    · subst same
      simp only [if_true, Option.some.injEq, true_and]
      constructor
      · rintro rfl
        exact .inr rfl
      · rintro (listed | rfl)
        · exact (agree key value value' (List.mem_append_left _ listed) (by simp)).symm
        · rfl
    · simp only [same, if_false, false_and, or_false]
      exact before

end SubstateDB

/-- Keccak-256 on the empty code and on the code that only stops. -/
def stopKeccak (code : Bytes) : Hash :=
  if code = [] then emptyCodeHash
  else if code = [0x00] then 0xbc36789e7a1e281436464229828f817d6612f7b477d66591ff96a9e064bcc98a
  else 0

def stopCreation : Substate where
  inputAlloc := Map.empty.set 1 (some (newSubstateAccount 0 10 [0x00]))
  outputAlloc := Map.empty.set 1 (some { newSubstateAccount 1 10 [0x00] with storage := Map.empty.set 2 3 })
  env := ⟨9, 1, 8000000, 5, 1000, Map.empty.set 4 7, some 100⟩
  message := ⟨0, true, 10, 100000, 1, none, 0, [0x00], none, [], 10, 10⟩
  result := ⟨1, 0, [{ address := 1, topics := [6], data := [1], txHash := 8 }], 5, 53000⟩

theorem stopCreation_enumerate : RangeOrders.Enumerate ⟨[1], [1], [4]⟩ stopCreation :=
  ⟨Map.enumerates_single _ _, Map.enumerates_single _ _, Map.enumerates_single _ _⟩

theorem single_wellFormed {account : SubstateAccount} (word : IsWord account.balance) (addr : Address) :
    SubstateAlloc.WellFormed (Map.empty.set addr (some account)) := by
  constructor
  · intro other
    rw [Map.lookup_set]
    split <;> simp
  · intro other found present
    obtain ⟨-, ⟨⟩⟩ := Map.of_lookup_single present
    exact word

theorem stopCreation_wellFormed : stopCreation.WellFormed where
  inputAlloc := single_wellFormed (by decide) 1
  outputAlloc := single_wellFormed (by decide) 1
  difficulty := by decide
  baseFee := by
    rintro fee ⟨⟩
    decide
  gasPrice := by decide
  value := by decide
  gasFeeCap := by decide
  gasTipCap := by decide

end IDWDetector
