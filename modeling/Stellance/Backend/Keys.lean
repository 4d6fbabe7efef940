import Mathlib.Data.Set.List
import Stellance.Library.Grouping
import Stellance.Backend.Ids

/-! The keys of escrows on chain. Any text can be stripped of its hyphens, but only where
the hyphens stand at fixed places does the key still tell which text it was made from; the
ids of the database are the texts of that kind. -/
namespace Stellance.Backend

/-- `[a-zA-Z0-9_]` -/
def symbolChar (char : Char) : Bool := char.isAlphanum || char = '_'

/-- What the network takes as a symbol. -/
def LegalSymbol (symbol : Symbol) : Prop := symbol.length ≤ 32 ∧ ∀ char ∈ symbol, symbolChar char = true

/-- The keys of the storage of the escrow contract. -/
inductive DataKey where
  | escrow (contractId : Symbol)
  deriving DecidableEq

/-- `[0-9a-f]` -/
def lowerHex (char : Char) : Bool := '0' ≤ char ∧ char ≤ '9' ∨ 'a' ≤ char ∧ char ≤ 'f'

/-- Texts of UUIDs as the database writes them: lower-case hexadecimal groups of 8-4-4-4-12. -/
structure CanonicalUuid (text : List Char) : Prop where
  grouped : Grouping.widths '-' text = [8, 4, 4, 4, 12]
  hex : ∀ group ∈ text.splitOn '-', ∀ char ∈ group, lowerHex char = true

instance (text : List Char) : Decidable (CanonicalUuid text) :=
  decidable_of_iff (Grouping.widths '-' text = [8, 4, 4, 4, 12] ∧
      (text.splitOn '-').all (fun group => group.all lowerHex) = true)
    ⟨fun ⟨grouped, hex⟩ => ⟨grouped, by simpa using hex⟩, fun ⟨grouped, hex⟩ => ⟨grouped, by simpa using hex⟩⟩

theorem lowerHex_iff {char : Char} : lowerHex char = true ↔ char ∈ Set.range hexDigit := by
  constructor
  · intro hex
    have bounds : 48 ≤ char.toNat ∧ char.toNat ≤ 57 ∨ 97 ≤ char.toNat ∧ char.toNat ≤ 102 := by
      simpa [lowerHex, Char.le_def, UInt32.le_iff_toNat_le] using hex
    have digits : ∀ code < 103, 48 ≤ code ∧ code ≤ 57 ∨ 97 ≤ code ∧ code ≤ 102 →
        ∃ digit, hexDigit digit = Char.ofNat code := by decide
    rw [← Char.ofNat_toNat char]
    exact digits _ (by omega) bounds
  · rintro ⟨digit, rfl⟩
    revert digit
    decide

theorem symbolChar_hexDigit (digit : Fin 16) : symbolChar (hexDigit digit) = true := by
  revert digit
  decide

theorem Uuid.text_canonical (id : Uuid) : CanonicalUuid id.text := by
  have split : id.text.splitOn '-' = id.groups := by
    rw [id.text_eq]
    exact List.splitOn_intercalate '-' (fun _ => id.hyphen_not_mem) (List.cons_ne_nil _ _)
  constructor
  · rw [Grouping.widths, split]
    simp [Uuid.groups, Uuid.group, id.count]
  · intro group member char within
    rw [split] at member
    obtain ⟨digit, rfl⟩ := id.mem_group member within
    exact lowerHex_iff.mpr ⟨digit, rfl⟩

section Canonical
variable {uuid other : List Char}

/-- The key has the digits of the groups and nothing else. -/
theorem CanonicalUuid.digits (canonical : CanonicalUuid uuid) {char : Char}
    (member : char ∈ contractIdToSymbol uuid) : char ∈ Set.range hexDigit := by
  obtain ⟨group, among, within⟩ := Grouping.mem_strip.mp member
  exact lowerHex_iff.mp (canonical.hex group among char within)

theorem CanonicalUuid.symbol_length (canonical : CanonicalUuid uuid) :
    (contractIdToSymbol uuid).length = 32 := by
  apply (Grouping.strip_length '-' uuid).trans
  rw [canonical.grouped]
  rfl

theorem CanonicalUuid.symbol_legal (canonical : CanonicalUuid uuid) :
    LegalSymbol (contractIdToSymbol uuid) := by
  refine ⟨canonical.symbol_length.le, fun char member => ?_⟩
  obtain ⟨digit, rfl⟩ := canonical.digits member
  exact symbolChar_hexDigit digit

theorem CanonicalUuid.reinsert_symbol (canonical : CanonicalUuid uuid) :
    Grouping.reinsert '-' [8, 12, 16, 20] (contractIdToSymbol uuid) = uuid := by
  have whole := Grouping.reinsert_strip '-' uuid
  rw [canonical.grouped] at whole
  exact whole

theorem CanonicalUuid.symbol_injective (canonical : CanonicalUuid uuid) (canonical' : CanonicalUuid other)
    (same : contractIdToSymbol other = contractIdToSymbol uuid) : other = uuid :=
  Grouping.strip_injOn '-' [8, 4, 4, 4, 12] canonical'.grouped canonical.grouped same

/-- The ids of the model are the canonical texts. -/
theorem canonical_iff : CanonicalUuid uuid ↔ ∃ id : Uuid, id.text = uuid := by
  constructor
  · intro canonical
    have digits : contractIdToSymbol uuid ∈ Set.range (List.map hexDigit) := by
      rw [Set.range_list_map]
      exact fun char member => canonical.digits member
    obtain ⟨digits, same⟩ := digits
    have count : digits.length = 32 := by
      rw [← canonical.symbol_length, ← same, List.length_map]
    let id : Uuid := ⟨digits, count⟩
    exact ⟨id, canonical.symbol_injective id.text_canonical ((symbol_eq id).trans same)⟩
  · rintro ⟨id, rfl⟩
    exact id.text_canonical

end Canonical

/-- A UUID is known by its key: the key is a symbol of 32 characters, the hyphens can be put
back, and no other UUID has it. -/
theorem contractIdToSymbol_lossless {uuid : List Char} (canonical : CanonicalUuid uuid) :
    (contractIdToSymbol uuid).length = 32 ∧ LegalSymbol (contractIdToSymbol uuid) ∧
      Grouping.reinsert '-' [8, 12, 16, 20] (contractIdToSymbol uuid) = uuid ∧
      ∀ other, CanonicalUuid other →
        DataKey.escrow (contractIdToSymbol other) = DataKey.escrow (contractIdToSymbol uuid) →
        other = uuid := by
  refine ⟨canonical.symbol_length, canonical.symbol_legal, canonical.reinsert_symbol, ?_⟩
  intro other canonical' same
  exact canonical.symbol_injective canonical' (DataKey.escrow.inj same)

theorem contractIdToSymbol_lossless_sample :
    contractIdToSymbol "550e8400-e29b-41d4-a716-446655440000".toList =
        "550e8400e29b41d4a716446655440000".toList ∧
      Grouping.reinsert '-' [8, 12, 16, 20] "550e8400e29b41d4a716446655440000".toList =
        "550e8400-e29b-41d4-a716-446655440000".toList := by
  have canonical : CanonicalUuid "550e8400-e29b-41d4-a716-446655440000".toList := by decide
  exact ⟨by decide, (contractIdToSymbol_lossless canonical).2.2.1⟩

end Stellance.Backend
