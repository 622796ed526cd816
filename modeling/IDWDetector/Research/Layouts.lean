import IDWDetector.Research.Reading

open Rlp Machine

namespace IDWDetector

variable {item : Item}

theorem AllocVar.filler_ok {v v' : AllocVar} :
    filler item v = (v', none) ↔ ∃ alloc, SubstateAllocRLP.codec.decode item = .ok alloc ∧ v' = alloc.var := by
  simp only [filler, Filler.struct_ok, Filler.fields_cons_ok, Filler.fields_nil_ok, Filler.sliceField_ok,
    SubstateAllocRLP.codec, Fields.struct_decode_ok]
  constructor
  · rintro ⟨_, rfl, first, _, _, rfl, ⟨addresses, read, rfl⟩, second, _, _, rfl, ⟨accounts, read', rfl⟩, rfl, rfl⟩
    refine ⟨⟨addresses, accounts⟩, ⟨_, (addresses, accounts, ()), rfl, ?_, rfl⟩, ?_⟩
    · exact Fields.cons_decode_ok.mpr ⟨first, _, rfl, read,
        Fields.cons_decode_ok.mpr ⟨second, [], rfl, read', Fields.nil_decode_ok.mpr rfl⟩⟩
    · simp [SubstateAllocRLP.var]
  · rintro ⟨alloc, ⟨_, ⟨addresses, accounts, _⟩, rfl, read, rfl⟩, rfl⟩
    obtain ⟨first, _, rfl, readFirst, read⟩ := Fields.cons_decode_ok.mp read
    obtain ⟨second, _, rfl, readSecond, read⟩ := Fields.cons_decode_ok.mp read
    obtain rfl := Fields.nil_decode_ok.mp read
    refine ⟨_, rfl, first, _, _, rfl, ⟨addresses, readFirst, rfl⟩, second, _, _, rfl,
      ⟨accounts, readSecond, rfl⟩, rfl, ?_⟩
    simp [SubstateAllocRLP.var]

theorem substateFields_decode_ok {ε μ : Type} {env : Codec ε} {message : Codec μ} {items : List Item}
    {a : SubstateAllocRLP × SubstateAllocRLP × ε × μ × SubstateResultRLP × Unit} :
    (substateFields env message).decode items = .ok (a, []) ↔
      ∃ first second third fourth fifth, items = [first, second, third, fourth, fifth] ∧
        SubstateAllocRLP.codec.decode first = .ok a.1 ∧ SubstateAllocRLP.codec.decode second = .ok a.2.1 ∧
        env.decode third = .ok a.2.2.1 ∧ message.decode fourth = .ok a.2.2.2.1 ∧
        SubstateResultRLP.codec.decode fifth = .ok a.2.2.2.2.1 := by
  obtain ⟨input, output, envRLP, messageRLP, result, _⟩ := a
  simp only [Fields.cons_decode_ok, Fields.nil_decode_ok]
  constructor
  · rintro ⟨first, _, rfl, readFirst, second, _, rfl, readSecond, third, _, rfl, readThird, fourth, _, rfl,
      readFourth, fifth, _, rfl, readFifth, rfl⟩
    exact ⟨first, second, third, fourth, fifth, rfl, readFirst, readSecond, readThird, readFourth, readFifth⟩
  · rintro ⟨first, second, third, fourth, fifth, rfl, readFirst, readSecond, readThird, readFourth, readFifth⟩
    exact ⟨first, _, rfl, readFirst, second, _, rfl, readSecond, third, _, rfl, readThird, fourth, _, rfl,
      readFourth, fifth, _, rfl, readFifth, rfl⟩

theorem SubstateVar.filler_ok {v v' : SubstateVar} :
    filler item v = (v', none) ↔ ∃ s, SubstateRLP.codec.decode item = .ok s ∧ v' = s.var := by
  simp only [filler, Filler.struct_ok, Filler.fields_cons_ok, Filler.fields_nil_ok, Filler.field_ok,
    Filler.pointer_ok, AllocVar.filler_ok, SubstateRLP.codec, Fields.struct_decode_ok, substateFields_decode_ok]
  constructor
  · rintro ⟨_, rfl, first, _, _, rfl, ⟨_, ⟨input, readFirst, rfl⟩, rfl⟩, second, _, _, rfl,
      ⟨_, ⟨output, readSecond, rfl⟩, rfl⟩, third, _, _, rfl, ⟨env, readThird, rfl⟩, fourth, _, _, rfl,
      ⟨message, readFourth, rfl⟩, fifth, _, _, rfl, ⟨result, readFifth, rfl⟩, rfl, rfl⟩
    exact ⟨⟨input, output, env, message, result⟩, ⟨_, (input, output, env, message, result, ()), rfl,
      ⟨first, second, third, fourth, fifth, rfl, readFirst, readSecond, readThird, readFourth, readFifth⟩, rfl⟩, rfl⟩
  · rintro ⟨_, ⟨_, ⟨input, output, env, message, result, _⟩, rfl, ⟨first, second, third, fourth, fifth, rfl,
      readFirst, readSecond, readThird, readFourth, readFifth⟩, rfl⟩, rfl⟩
    exact ⟨_, rfl, first, _, _, rfl, ⟨_, ⟨input, readFirst, rfl⟩, rfl⟩, second, _, _, rfl,
      ⟨_, ⟨output, readSecond, rfl⟩, rfl⟩, third, _, _, rfl, ⟨env, readThird, rfl⟩, fourth, _, _, rfl,
      ⟨message, readFourth, rfl⟩, fifth, _, _, rfl, ⟨result, readFifth, rfl⟩, rfl, rfl⟩

inductive Layout
  | latest
  | berlin
  | legacy
deriving DecidableEq, Repr

def Layout.Accepts (value : Bytes) : Layout → Prop
  | .latest => (SubstateDB.decodeLatest value .zero).2 = none
  | .berlin => ∃ s, BerlinSubstateRLP.codec.decodeBytes value = .ok s
  | .legacy => ∃ s, LegacySubstateRLP.codec.decodeBytes value = .ok s

/-- A substate in one of the layouts that a database may hold. -/
inductive StoredRLP
  | latest (s : SubstateRLP)
  | berlin (s : BerlinSubstateRLP)
  | legacy (s : LegacySubstateRLP)
deriving DecidableEq

namespace StoredRLP

def layout : StoredRLP → Layout
  | latest _ => .latest
  | berlin _ => .berlin
  | legacy _ => .legacy

def encode : StoredRLP → Except Rlp.Error Item
  | latest s => SubstateRLP.codec.encode s
  | berlin s => BerlinSubstateRLP.codec.encode s
  | legacy s => LegacySubstateRLP.codec.encode s

def encodeToBytes (stored : StoredRLP) : Except Rlp.Error Bytes := do
  let item ← stored.encode
  item.encodeToBytes

/-- The substate in the current layout, a function of the stored one alone. -/
def current : StoredRLP → SubstateRLP
  | latest s => s
  | berlin s =>
    { inputAlloc := s.inputAlloc
      outputAlloc := s.outputAlloc
      env := SubstateEnvRLP.zero.setLegacyRLP s.env
      message := SubstateMessageRLP.zero.setBerlinRLP s.message
      result := s.result }
  | legacy s =>
    { inputAlloc := s.inputAlloc
      outputAlloc := s.outputAlloc
      env := SubstateEnvRLP.zero.setLegacyRLP s.env
      message := SubstateMessageRLP.zero.setLegacyRLP s.message
      result := s.result }

end StoredRLP

theorem substateFields_rejects {ε ε' μ μ' σ τ : Type} {env : Codec ε} {env' : Codec ε'} {message : Codec μ}
    {message' : Codec μ'} {split : σ → SubstateAllocRLP × SubstateAllocRLP × ε × μ × SubstateResultRLP × Unit}
    {join join_split} {split' : τ → SubstateAllocRLP × SubstateAllocRLP × ε' × μ' × SubstateResultRLP × Unit}
    {join' join_split'} {s : σ} (differ : (∀ a part, env.encode a = .ok part → ¬ env'.Accepts part) ∨
      ∀ a part, message.encode a = .ok part → ¬ message'.Accepts part)
    (encoded : ((substateFields env message).struct split join join_split).encode s = .ok item) :
    ¬ ((substateFields env' message').struct split' join' join_split').Accepts item := by
  rintro ⟨t, decoded⟩
  obtain ⟨items, rfl, written⟩ := Fields.struct_encode_ok.mp encoded
  obtain ⟨items', a, same, read, -⟩ := Fields.struct_decode_ok.mp decoded
  cases same
  obtain ⟨_, _, third, fourth, _, rfl, -, -, readThird, readFourth, -⟩ := substateFields_decode_ok.mp read
  obtain ⟨_, _, same, -, written⟩ := Fields.cons_encode_ok.mp written
  cases same
  obtain ⟨_, _, same, -, written⟩ := Fields.cons_encode_ok.mp written
  cases same
  obtain ⟨_, _, same, writtenThird, written⟩ := Fields.cons_encode_ok.mp written
  cases same
  obtain ⟨_, _, same, writtenFourth, written⟩ := Fields.cons_encode_ok.mp written
  cases same
  rcases differ with differ | differ
  · exact differ _ third writtenThird ⟨_, readThird⟩
  · exact differ _ fourth writtenFourth ⟨_, readFourth⟩

theorem env_rejects_legacy {env : LegacySubstateEnvRLP} (encoded : LegacySubstateEnvRLP.codec.encode env = .ok item) :
    ¬ SubstateEnvRLP.codec.Accepts item := by
  apply Fields.struct_rejects _ encoded
  decide

theorem legacyEnv_rejects_latest {env : SubstateEnvRLP} (encoded : SubstateEnvRLP.codec.encode env = .ok item) :
    ¬ LegacySubstateEnvRLP.codec.Accepts item := by
  apply Fields.struct_rejects _ encoded
  decide

theorem legacyMessage_rejects_berlin {message : BerlinSubstateMessageRLP}
    (encoded : BerlinSubstateMessageRLP.codec.encode message = .ok item) :
    ¬ LegacySubstateMessageRLP.codec.Accepts item := by
  apply Fields.struct_rejects _ encoded
  decide

theorem berlinMessage_rejects_legacy {message : LegacySubstateMessageRLP}
    (encoded : LegacySubstateMessageRLP.codec.encode message = .ok item) :
    ¬ BerlinSubstateMessageRLP.codec.Accepts item := by
  apply Fields.struct_rejects _ encoded
  decide

namespace StoredRLP

variable {stored : StoredRLP} (encoded : stored.encode = .ok item)
include encoded

theorem latest_accepts_iff : SubstateRLP.codec.Accepts item ↔ stored.layout = .latest := by
  cases stored with
  | latest s => exact iff_of_true ⟨s, SubstateRLP.codec.decode_encode encoded⟩ rfl
  | berlin s =>
    refine iff_of_false ?_ (by rintro ⟨⟩)
    exact substateFields_rejects (.inl fun _ _ => env_rejects_legacy) encoded
  | legacy s =>
    refine iff_of_false ?_ (by rintro ⟨⟩)
    exact substateFields_rejects (.inl fun _ _ => env_rejects_legacy) encoded

theorem berlin_accepts_iff : BerlinSubstateRLP.codec.Accepts item ↔ stored.layout = .berlin := by
  cases stored with
  | latest s =>
    refine iff_of_false ?_ (by rintro ⟨⟩)
    exact substateFields_rejects (.inl fun _ _ => legacyEnv_rejects_latest) encoded
  | berlin s => exact iff_of_true ⟨s, BerlinSubstateRLP.codec.decode_encode encoded⟩ rfl
  | legacy s =>
    refine iff_of_false ?_ (by rintro ⟨⟩)
    exact substateFields_rejects (.inr fun _ _ => berlinMessage_rejects_legacy) encoded

theorem legacy_accepts_iff : LegacySubstateRLP.codec.Accepts item ↔ stored.layout = .legacy := by
  cases stored with
  | latest s =>
    refine iff_of_false ?_ (by rintro ⟨⟩)
    exact substateFields_rejects (.inl fun _ _ => legacyEnv_rejects_latest) encoded
  | berlin s =>
    refine iff_of_false ?_ (by rintro ⟨⟩)
    exact substateFields_rejects (.inr fun _ _ => legacyMessage_rejects_berlin) encoded
  | legacy s => exact iff_of_true ⟨s, LegacySubstateRLP.codec.decode_encode encoded⟩ rfl

end StoredRLP

theorem Layout.accepts_iff {stored : StoredRLP} {value : Bytes} (encoded : stored.encodeToBytes = .ok value)
    (layout : Layout) : layout.Accepts value ↔ layout = stored.layout := by
  obtain ⟨item, written, sized⟩ := bind_ok.mp encoded
  have parsed := decodeBytes_encodeToBytes sized
  cases layout with
  | latest =>
    rw [eq_comm, ← StoredRLP.latest_accepts_iff written]
    simp only [Accepts, SubstateDB.decodeLatest, parsed]
    constructor
    · intro done
      obtain ⟨s, decoded, -⟩ := SubstateVar.filler_ok.mp (Prod.ext rfl done)
      exact ⟨s, decoded⟩
    · rintro ⟨s, decoded⟩
      rw [SubstateVar.filler_ok.mpr ⟨s, decoded, rfl⟩]
  | berlin =>
    rw [eq_comm, ← StoredRLP.berlin_accepts_iff written]
    simp only [Accepts, Codec.Accepts, Codec.decodeBytes_ok parsed]
  | legacy =>
    rw [eq_comm, ← StoredRLP.legacy_accepts_iff written]
    simp only [Accepts, Codec.Accepts, Codec.decodeBytes_ok parsed]

namespace StoredRLP

variable {stored : StoredRLP} {value : Bytes}

theorem decodeOlder_eq (encoded : stored.encodeToBytes = .ok value) (older : stored.layout ≠ .latest)
    (leftover : SubstateVar) : SubstateDB.decodeOlder value leftover = .ok stored.current.var := by
  obtain ⟨item, written, sized⟩ := bind_ok.mp encoded
  have parsed := decodeBytes_encodeToBytes sized
  cases stored with
  | latest s => exact absurd rfl older
  | berlin s =>
    have decoded := (Codec.decodeBytes_ok parsed).mpr (BerlinSubstateRLP.codec.decode_encode written)
    rw [SubstateDB.decodeOlder, decoded]
    rfl
  | legacy s =>
    have rejected : ∀ b, BerlinSubstateRLP.codec.decodeBytes value ≠ .ok b := by
      intro b accepted
      cases (Layout.accepts_iff encoded .berlin).mp ⟨b, accepted⟩
    have decoded := (Codec.decodeBytes_ok parsed).mpr (LegacySubstateRLP.codec.decode_encode written)
    cases attempt : BerlinSubstateRLP.codec.decodeBytes value with
    | ok b => exact absurd attempt (rejected b)
    | error e =>
      rw [SubstateDB.decodeOlder, attempt, decoded]
      rfl

theorem decode_eq (encoded : stored.encodeToBytes = .ok value) :
    SubstateDB.decodeSubstateRLP value = .ok stored.current.var := by
  have accepts := Layout.accepts_iff encoded .latest
  rw [SubstateDB.decodeSubstateRLP]
  cases attempt : SubstateDB.decodeLatest value .zero with
  | mk leftover err =>
    rw [Layout.Accepts, attempt] at accepts
    cases err with
    | none =>
      obtain ⟨item, written, sized⟩ := bind_ok.mp encoded
      have parsed := decodeBytes_encodeToBytes sized
      have latest := accepts.mp rfl
      cases stored with
      | latest s =>
        rw [SubstateDB.decodeLatest, parsed] at attempt
        have filled : SubstateVar.filler item .zero = (s.var, none) :=
          SubstateVar.filler_ok.mpr ⟨s, SubstateRLP.codec.decode_encode written, rfl⟩
        cases attempt.symm.trans filled
        rfl
      | berlin s => cases latest
      | legacy s => cases latest
    | some e =>
      apply decodeOlder_eq encoded
      intro latest
      cases accepts.mpr latest.symm

end StoredRLP

theorem getSubstate_stored (keccak : Bytes → Hash) (db : SubstateDB) (block tx : Uint64) {stored : StoredRLP}
    {value : Bytes} (encoded : stored.encodeToBytes = .ok value) :
    (db.write (.put (stage1SubstateKey block tx) value)).getSubstate keccak block tx =
      Substate.setRLP (db.getCode keccak) stored.current.var := by
  have found : (db.write (.put (stage1SubstateKey block tx) value)).backend.lookup (stage1SubstateKey block tx) =
      some value := Go.Map.lookup_set_self _ _ _
  rw [SubstateDB.getSubstate_eq found, SubstateDB.readSubstate_eq (StoredRLP.decode_eq encoded),
    SubstateDB.getCode_putSubstate]

/-- Exactly the layout that wrote a value accepts it, whatever a failed first attempt left in the variable. -/
theorem layouts_unambiguous {stored : StoredRLP} {value : Bytes} (encoded : stored.encodeToBytes = .ok value) :
    (∀ layout : Layout, layout.Accepts value ↔ layout = stored.layout) ∧
      SubstateDB.decodeSubstateRLP value = .ok stored.current.var ∧
      (stored.layout ≠ .latest →
        ∀ leftover, SubstateDB.decodeOlder value leftover = .ok stored.current.var) :=
  ⟨Layout.accepts_iff encoded, StoredRLP.decode_eq encoded, StoredRLP.decodeOlder_eq encoded⟩

def berlinCall : BerlinSubstateRLP where
  inputAlloc := ⟨[1], [⟨1, 5, emptyCodeHash, [(3, 4)]⟩]⟩
  outputAlloc := ⟨[1], [⟨1, 5, emptyCodeHash, [(3, 7)]⟩]⟩
  env := ⟨9, 1, 8000000, 12244000, 1000, [(7, 8)]⟩
  message := ⟨0, true, 10, 100000, 4, some 1, 0, [1, 2], none, [⟨1, [3]⟩]⟩
  result := ⟨1, 0, [⟨1, [6], [1]⟩], 0, 30000⟩

theorem berlinCall_encodes : ∃ value, (StoredRLP.berlin berlinCall).encodeToBytes = .ok value := by
  have encodes : (StoredRLP.berlin berlinCall).encodeToBytes.toOption.isSome = true := by decide +kernel
  exact toOption_isSome encodes

theorem layouts_unambiguous_berlinCall :
    ∃ value, (StoredRLP.berlin berlinCall).encodeToBytes = .ok value ∧
      (∀ layout : Layout, layout.Accepts value ↔ layout = .berlin) ∧
      SubstateDB.decodeSubstateRLP value = .ok (StoredRLP.berlin berlinCall).current.var := by
  obtain ⟨value, encoded⟩ := berlinCall_encodes
  obtain ⟨accepts, decoded, -⟩ := layouts_unambiguous encoded
  exact ⟨value, encoded, accepts, decoded⟩

end IDWDetector
