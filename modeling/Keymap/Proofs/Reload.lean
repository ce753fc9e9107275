import Keymap.Config.Load
import Keymap.Proofs.Schema.Configs

/-!
# Saved configurations

A configuration that has been loaded is in the current version and sane, and the names of
its definitions ascend. Its JSON text is therefore loaded as the same configuration, and
nothing is migrated again.
-/

namespace Keymap.Config

variable {config : Config}

/-- What is known of every configuration that is loaded. -/
structure Settled (config : Config) : Prop where
  version : config.schemaVersion = currentVersion
  sane : config.sane = .ok ()
  defines : Codec.Ascends config.defines

/-- A configuration that is migrated is in the current version, and has the same definitions. -/
theorem version_of_migrate {before : Config} {migrated : Bool}
    (h : before.migrate = .ok (config, migrated)) :
    config.schemaVersion = currentVersion ∧ config.defines = before.defines := by
  rw [migrate] at h
  split at h
  next => cases h
  next =>
    split at h
    next hversion =>
      cases h
      exact ⟨hversion, rfl⟩
    next =>
      cases h
      exact ⟨rfl, rfl⟩

theorem ascends_of_ofText {format : Format} {text : String} (h : ofText format text = .ok config) :
    Codec.Ascends config.defines := by
  rw [ofText, ofDocument] at h
  split at h
  next => cases h
  next read hread =>
    split at h
    next =>
      cases h
      exact ascends_of_decode hread
    next => cases h

/-- A configuration that is loaded is settled. -/
theorem settled_of_load {format : Format} {text : String} (h : load format text = .ok config) :
    config.Settled := by
  obtain ⟨before, hbefore, h⟩ := bind_eq_ok_iff.mp h
  obtain ⟨⟨after, migrated⟩, hsettle, hconfig⟩ := bind_eq_ok_iff.mp h
  cases hconfig
  obtain ⟨⟨current, _⟩, hmigrate, h⟩ := bind_eq_ok_iff.mp hsettle
  obtain ⟨_, hsane, hresult⟩ := bind_eq_ok_iff.mp h
  cases hresult
  obtain ⟨hversion, hdefines⟩ := version_of_migrate hmigrate
  exact ⟨hversion, hsane, hdefines ▸ ascends_of_ofText hbefore⟩

/-- A settled configuration is not migrated. -/
theorem Settled.migrate (h : config.Settled) : config.migrate = .ok (config, false) := by
  have hcurrent : ¬ currentVersion < config.schemaVersion := by
    rw [h.version]
    decide
  rw [Config.migrate, if_neg hcurrent, if_pos h.version]

/-- A configuration with ascending definitions is read from its own text. -/
theorem ofText_jsonText (hdefines : Codec.Ascends config.defines)
    (hback : ∀ x ∈ config.toJson.fractions, x.ReadsBack) :
    ofText .json config.jsonText = .ok config := by
  -- no configuration nests more than eight containers
  have hwrites := @writes 119 config hdefines
  have hdecode : codec.decode (Node.ofJson config.toJson) = .ok config := hwrites.faithful
  have hfits : config.toJson.Fits JsonReader.deepest := hwrites.fits
  rw [ofText, Format.read, jsonText, Json.ofJsonText_text hfits hback, ofDocument, hdecode]
  rfl

/-- A configuration that has been loaded is loaded again from its JSON text as it is, without
being migrated again, so that it is saved as the same text again. All that is assumed of the
reader is that it reads back the fractions in the configuration from their own texts. -/
theorem load_jsonText {format : Format} {text : String} (h : load format text = .ok config)
    (hback : ∀ x ∈ config.toJson.fractions, x.ReadsBack) :
    load .json config.jsonText = .ok config ∧
      (ofText .json config.jsonText >>= settle) = .ok (config, false) ∧
      (load .json config.jsonText).map jsonText = .ok config.jsonText := by
  have hsettled := settled_of_load h
  have hread := ofText_jsonText hsettled.defines hback
  have hsettle : config.settle = .ok (config, false) := by
    refine bind_eq_ok_iff.mpr ⟨(config, false), hsettled.migrate, ?_⟩
    exact bind_eq_ok_iff.mpr ⟨(), hsettled.sane, rfl⟩
  have hload : load .json config.jsonText = .ok config :=
    bind_eq_ok_iff.mpr ⟨config, hread, bind_eq_ok_iff.mpr ⟨(config, false), hsettle, rfl⟩⟩
  refine ⟨hload, bind_eq_ok_iff.mpr ⟨config, hread, hsettle⟩, ?_⟩
  rw [hload]
  rfl

/-- A text from before the versions. Its definitions are out of order, the capability between
steps is absent and not the usual one, and a fraction is written as an integer. -/
def olderText : String :=
  "\x7b\"name\":\"k\"," ++
  "\"max_scan_code\":4," ++
  "\"routing\":\x7b\"spacer\":null\x7d," ++
  "\"defines\":\x7b\"b\":\"1\",\"a\":\"2\"\x7d," ++
  "\"layers\":[\x7b\"name\":\"base\"\x7d]," ++
  "\"positions\":[\x7b\"scan_code\":1," ++
  "\"x\":19.05,\"y\":38\x7d]\x7d"

/-- Loading the older text gives a configuration that is loaded again from its own text. -/
theorem load_jsonText_older : ∃ config, load .json olderText = .ok config ∧
    (∀ x ∈ config.toJson.fractions, x.ReadsBack) ∧
    load .json config.jsonText = .ok config := by
  have hread : ((load .json olderText).toOption.any fun config =>
      config.toJson.fractions.all fun x => decide x.ReadsBack) = true := by
    decide +kernel
  generalize hresult : load .json olderText = result at hread
  cases result with
  | error failure => cases hread
  | ok config =>
    have hback : ∀ x ∈ config.toJson.fractions, x.ReadsBack := fun x hx =>
      of_decide_eq_true (List.all_eq_true.mp hread x hx)
    exact ⟨config, rfl, hback, (load_jsonText hresult hback).1⟩

end Keymap.Config
