import FlowAtlas.Config

namespace FlowAtlas

namespace Fields

open Checked

variable {α β : Type}

theorem seq_valid {f : Checked (α → β)} {a : Checked α} {value : β} (read : f <*> a = valid value) :
    ∃ build part, f = valid build ∧ a = valid part ∧ build part = value := by
  change apply f (fun _ => a) = valid value at read
  cases f with
  | invalid problems => cases a <;> cases read
  | valid build =>
      cases a with
      | invalid problems => cases read
      | valid part => exact ⟨build, part, rfl, rfl, valid.inj read⟩

theorem map_valid {build : α → β} {a : Checked α} {value : β} (read : build <$> a = valid value) :
    ∃ part, a = valid part ∧ build part = value := by
  change Checked.map build a = valid value at read
  cases a with
  | invalid problems => cases read
  | valid part => exact ⟨part, rfl, valid.inj read⟩

theorem under_valid {step : Step} {a : Checked α} {value : α} (read : a.under step = valid value) :
    a = valid value := by
  cases a with
  | invalid problems => cases read
  | valid part => exact read

theorem andThen_valid {a : Checked α} {f : α → Checked β} {value : β} (read : a.andThen f = valid value) :
    ∃ part, a = valid part ∧ f part = valid value := by
  cases a with
  | invalid problems => cases read
  | valid part => exact ⟨part, rfl, read⟩

theorem atLeast_valid {bound i value : Int} (read : atLeast bound i = valid value) : bound ≤ value := by
  rw [atLeast] at read
  split at read
  · rename_i within
    rwa [← valid.inj read]
  · cases read

theorem optional_satisfies {P : α → Prop} {name : String} {absent : α} {read : Json → Checked α}
    {fields : Entries} {value : α} (plain : P absent) (sound : ∀ json a, read json = valid a → P a)
    (given : optional name absent read fields = valid value) : P value := by
  rw [optional] at given
  split at given
  · exact sound _ _ (under_valid given)
  · rwa [← valid.inj given]

theorem optionalEither_satisfies {P : α → Prop} {preferred other : String} {absent : α}
    {read : Json → Checked α} {fields : Entries} {value : α} (plain : P absent)
    (sound : ∀ json a, read json = valid a → P a)
    (given : optionalEither preferred other absent read fields = valid value) : P value := by
  rw [optionalEither] at given
  split at given
  · exact sound _ _ (under_valid given)
  · exact optional_satisfies plain sound given

theorem bounded_field {preferred other : String} {absent bound : Int} {fields : Entries} {value : Int}
    (plain : bound ≤ absent)
    (given : optionalEither preferred other absent (fun v => (readInteger v).andThen (atLeast bound)) fields =
      valid value) : bound ≤ value := by
  refine optionalEither_satisfies (P := fun i => bound ≤ i) plain ?_ given
  intro json i read
  obtain ⟨_, _, within⟩ := andThen_valid read
  exact atLeast_valid within

end Fields

namespace Config

open Fields Checked

/-- The bounds that an accepted configuration keeps. -/
structure Accepted (config : Config) : Prop where
  depth : 0 ≤ config.maxDepth
  cap : 1 ≤ config.selectionCap

theorem default_accepted : Accepted {} := ⟨by decide, by decide⟩

theorem ofJson_accepted {origin : Origin} {json : Json} {config : Config}
    (read : ofJson origin json = valid config) : config.Accepted := by
  rw [ofJson, Origin.readRecord.eq_def] at read
  split at read
  · obtain ⟨_, service, most, _, built⟩ := seq_valid read
    obtain ⟨_, cap, more, capped, rfl⟩ := seq_valid most
    obtain ⟨_, depth, some, deep, rfl⟩ := seq_valid more
    obtain ⟨_, dots, named, _, rfl⟩ := seq_valid some
    obtain ⟨names, _, rfl⟩ := map_valid named
    rw [← built]
    exact ⟨bounded_field (by decide) deep, bounded_field (by decide) capped⟩
  · cases read

theorem ofText_accepted {text : List Char} {config : Config} (read : ofText text = valid config) :
    config.Accepted := by
  rw [ofText] at read
  split at read
  · exact ofJson_accepted read
  · cases read

end Config

end FlowAtlas
