import MatrixDB.Catalog.Lasting

/-!
# Dictionaries, encoders and masks

Whatever calls have been made, the encoder of a column is the one of its
dictionary, codes have 32 bits, and a mask is no longer than a counter can say.
Only four of the calls touch any of the three.
-/

namespace MatrixDB

open Lib

variable {κ : Type}

namespace Catalog

structure Coded (catalog : Catalog κ) : Prop where
  encoders : ∀ id, catalog.stringEncoders.lookup id =
    (catalog.stringDicts.lookup id).map encoderOf
  dicts : ∀ id dict, catalog.stringDicts.lookup id = some dict →
    dict.length ≤ 4294967296
  masks : ∀ id mask, catalog.nullMasks.lookup id = some mask →
    mask.length < 18446744073709551616

theorem coded_fresh (hostCap : Nat) : (fresh hostCap : Catalog κ).Coded := by
  refine ⟨fun _ => rfl, ?_, ?_⟩
  · intro id dict stored
    cases stored
  · intro id mask stored
    cases stored

namespace Coded

variable {before after : Catalog κ}

theorem same (coded : before.Coded) (texts : SameTexts before after) :
    after.Coded := by
  refine ⟨?_, ?_, ?_⟩
  · rw [texts.stringEncoders, texts.stringDicts]
    exact coded.encoders
  · rw [texts.stringDicts]
    exact coded.dicts
  · rw [texts.nullMasks]
    exact coded.masks

theorem insertDict (coded : before.Coded) (id : UInt64) {dict : List Bytes}
    (countable : dict.length ≤ 4294967296) :
    ({ before with
      stringDicts := before.stringDicts.insert id dict
      stringEncoders := before.stringEncoders.insert id (encoderOf dict) } :
      Catalog κ).Coded := by
  refine ⟨?_, ?_, coded.masks⟩
  · intro other
    by_cases own : other = id
    · subst own
      simp only [AList.lookup_insert, Option.map_some]
    · simp only [AList.lookup_insert_ne own]
      exact coded.encoders other
  · intro other content stored
    by_cases own : other = id
    · subst own
      rw [AList.lookup_insert] at stored
      cases stored
      exact countable
    · rw [AList.lookup_insert_ne own] at stored
      exact coded.dicts other content stored

theorem insertMask (coded : before.Coded) (id : UInt64) {mask : Bytes}
    (countable : mask.length < 18446744073709551616) :
    ({ before with nullMasks := before.nullMasks.insert id mask } :
      Catalog κ).Coded := by
  refine ⟨coded.encoders, coded.dicts, ?_⟩
  intro other content stored
  by_cases own : other = id
  · subst own
    rw [AList.lookup_insert] at stored
    cases stored
    exact countable
  · rw [AList.lookup_insert_ne own] at stored
    exact coded.masks other content stored

end Coded

theorem lasting_coded : Lasting (κ := κ) Coded where
  elsewhere coded elsewhere := coded.same elsewhere.toSameTexts
  insertDict id _ coded countable := coded.insertDict id countable
  insertMask id _ coded countable := coded.insertMask id countable
  name _ _ coded _ := coded.same ⟨rfl, rfl, rfl⟩

/-- Each name stands for a column. -/
def Named (catalog : Catalog κ) : Prop :=
  ∀ name id, catalog.nameToId.lookup name = some id →
    (catalog.columns.lookup id).isSome

theorem named_fresh (hostCap : Nat) : (fresh hostCap : Catalog κ).Named := by
  intro name id stored
  cases stored

theorem lasting_named : Lasting (κ := κ) Named where
  elsewhere := by
    intro before after named elsewhere name id stored
    rw [elsewhere.nameToId] at stored
    exact elsewhere.registered id (named name id stored)
  insertDict _ _ named _ := named
  insertMask _ _ named _ := named
  name := by
    intro catalog id name named known other id' stored
    by_cases own : other = name
    · subst own
      rw [AList.lookup_insert] at stored
      cases stored
      exact known
    · rw [AList.lookup_insert_ne own] at stored
      exact named other id' stored

end Catalog

namespace Analytics

variable [SoundCost κ] {strtod : Bytes → StrtodResult} {engine : Analytics κ}

theorem Live.coded (live : Live strtod engine) : engine.catalog.Coded :=
  live.lasting Catalog.lasting_coded Catalog.coded_fresh

theorem Live.named (live : Live strtod engine) : engine.catalog.Named :=
  live.lasting Catalog.lasting_named Catalog.named_fresh

end Analytics

end MatrixDB
