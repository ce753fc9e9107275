import Keymap.Config.Basic
import Keymap.Distinct
import Keymap.Report

/-!
# The settings table

Every animation has a row with the settings it has by default, under its own
name; the declared settings follow. Of several with one name the first counts.
-/

namespace Keymap

/-- A row of the settings table. -/
structure SettingsRow where
  name : String
  animation : Option Nat
  animationName : String
  trigger : Option Nat
  /-- The row holds the default settings of its animation. -/
  isInitial : Bool
  playback : Config.Playback

namespace Assembly

open Config (Animation AnimationSettings)

/-- The row with the default settings of an animation. -/
def initialRow (animations : List String) (animation : Animation) : SettingsRow :=
  ⟨animation.name, animations.idxOf? animation.name, animation.name, none, true,
    animation.settings⟩

/-- The row of declared settings. -/
def declaredRow (animations triggers : List String) (settings : AnimationSettings) :
    SettingsRow :=
  ⟨settings.name, animations.idxOf? settings.animation, settings.animation,
    settings.trigger.bind triggers.idxOf?, false, settings.modifiers⟩

/-- The settings table over the names of the animations and triggers. -/
def settingsRows (config : Config) (animations triggers : List String) : List SettingsRow :=
  (firstsBy (·.name) [] config.animations).map (initialRow animations) ++
    (firstsBy (·.name) animations config.animationSettings).map (declaredRow animations triggers)

/-- The findings on declared settings whose name is new. -/
def settingsReferences (animations triggers : List String) (settings : AnimationSettings) :
    List Finding :=
  let name := settings.name
  let report (fault : ReferenceFault) : Finding :=
    .error .animationReferences name (.reference fault)
  (if settings.animation ∈ animations then [] else [report (.animation name settings.animation)]) ++
    match settings.trigger with
    | none => []
    | some trigger =>
      if trigger ∈ triggers then [] else [report (.settingsTrigger name trigger)]

/-- The findings on declared settings, with the names that are taken before them. -/
def settingsFindings (animations triggers : List String) :
    (taken : List String) → List AnimationSettings → List Finding
  | _, [] => []
  | taken, settings :: rest =>
    if settings.name ∈ taken then
      .error .duplicates settings.name
          (.shape (.duplicate "animation settings" settings.name)) ::
        settingsFindings animations triggers taken rest
    else
      settingsReferences animations triggers settings ++
        settingsFindings animations triggers (settings.name :: taken) rest

end Assembly

end Keymap
