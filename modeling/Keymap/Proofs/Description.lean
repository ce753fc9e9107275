import Keymap.Proofs.Description.Layers
import Keymap.Proofs.Description.Pixels
import Keymap.Proofs.Rearrangement

/-!
# The description and the listings

The description of the tables is made apart from their listings: it looks names up
and collects its members under texts, while the listings have rows and lists that are
counted. Where a configuration has no errors both say the same. What is said about the
listings is read from them: the trigger lists of the layers and the tables of pixels
and cells by their words, the rows of the other tables by their places.
-/

namespace Keymap

namespace Listing

/-- The row of a capability in the table of capabilities. -/
def capabilityRow (capability : Config.Capability) (i : Nat) : String :=
  row ("/* " ++ toString i ++ " " ++ capability.name ++ " */") ++
    row ("\x7b " ++ capability.function ++ ", " ++ toString capability.argBytes ++ ", " ++
      featureName capability.feature ++ " \x7d,")

/-- The row of an animation in the table of animations. -/
def animationRow (animation : Animation.Compiled) (i : Nat) : String :=
  row ("/*" ++ toString i ++ "*/ " ++ framesName animation.name ++ ",")

end Listing

/-- Under the names of values stand the numbers of their rows in a listing, and
nothing else stands there. -/
structure Numbers (found : String → Option Json) (values : List α) (name : α → String)
    (row : α → Nat → String) (rows : List String) : Prop where
  number : ∀ key i, found key = some (.nat i) ↔
    ∃ a, values[i]? = some a ∧ name a = key ∧ rows[i]? = some (row a i)
  only : ∀ key value, found key = some value → ∃ i, value = .nat i

namespace Assembly

/-- The description says the same as the listings: it has all layers, and under the names of
capabilities, animations and settings it has the numbers of their rows. -/
structure Described (a : Assembly) : Prop where
  layers : ∃ items, a.describe.get? [.key "Layers"] = some (.array items) ∧
    items.length = a.layers.length
  layer : ∀ n < a.layers.length, a.DescribesLayer n
  capabilities : ∃ rows,
    Listing.capabilityTable a = Listing.table "const Capability CapabilitiesList[]" rows ∧
      Numbers (fun name => a.describe.get? [.key "Capabilities", .key name, .key "index"])
        a.capabilities (·.name) Listing.capabilityRow rows
  animations : ∃ rows,
    Listing.animationTable a =
        Listing.table "const uint8_t **Pixel_Animations[]" (rows ++ [Listing.row "0"]) ∧
      Numbers (fun name => a.describe.get? [.key "AnimationIds", .key name])
        a.animations (·.name) Listing.animationRow rows
  settings : ∃ initial added,
    Listing.settingsTable a = "const AnimationStackElement Pixel_AnimationSettings[] = \x7b" ++
        String.join initial ++ "\n\n\t/* Additional Settings */" ++ String.join added ++ "\n\x7d;" ∧
      Numbers (fun name => a.describe.get? [.key "AnimationSettings", .key name])
        a.settings (·.name) Listing.settingsLine (initial ++ added)
  pixels : ∀ map, a.pixels = some map → a.DescribesPixels map

end Assembly

section Names

variable {found : String → Option Json} {values : List α} {name : α → String}
  {row : α → Nat → String} {rows : List String}

theorem Json.nat_inj {i j : Nat} : Json.nat i = Json.nat j ↔ i = j := by
  simp only [Json.scalar.injEq, Scalar.number.injEq, Number.integer.injEq, Int.natCast_inj]

/-- Names that lead to the places of their values lead to the rows of these places. -/
theorem numbers_of_places (hrows : ∀ i, rows[i]? = values[i]?.map fun a => row a i)
    (hfound : ∀ key value, found key = some value ↔
      ∃ i a, values[i]? = some a ∧ name a = key ∧ value = .nat i) :
    Numbers found values name row rows where
  number key i := by
    rw [hfound]
    constructor
    · rintro ⟨j, a, ha, hname, hij⟩
      obtain rfl := Json.nat_inj.mp hij
      exact ⟨a, ha, hname, by rw [hrows, ha, Option.map_some]⟩
    · rintro ⟨a, ha, hname, _⟩
      exact ⟨i, a, ha, hname, rfl⟩
  only key value h := by
    obtain ⟨i, _, _, _, hi⟩ := (hfound key value).mp h
    exact ⟨i, hi⟩

/-- The rows of values stand at their places. -/
theorem getElem?_rows (values : List α) (row : α → Nat → String) (i : Nat) :
    (values.zipIdx.map fun (a, i) => row a i)[i]? = values[i]?.map fun a => row a i := by
  rw [List.getElem?_map, List.getElem?_zipIdx, Option.map_map, Nat.zero_add]
  rfl

/-- In an object of names with their places, a name leads to its place. -/
theorem part?_places_iff (h : (values.map name).Nodup) {key : String} {value : Json} :
    (Json.places (values.map name)).part? (.key key) = some value ↔
      ∃ i a, values[i]? = some a ∧ name a = key ∧ value = .nat i := by
  have hplaces : Json.places (values.map name) = Json.sortedObject
      ((values.map name).zipIdx.map fun entry => (entry.1, .nat entry.2)) := rfl
  have hkeys : (((values.map name).zipIdx.map fun entry => (entry.1, Json.nat entry.2)).map
      (·.1)).Nodup := by
    rw [List.map_map]
    exact (List.zipIdx_map_fst 0 (values.map name)).symm ▸ h
  rw [hplaces, Json.part?_sortedObject_iff hkeys, List.mem_map]
  constructor
  · rintro ⟨⟨other, i⟩, hmem, he⟩
    obtain ⟨rfl, rfl⟩ := Prod.mk.inj he
    rw [List.mk_mem_zipIdx_iff_getElem?, List.getElem?_map, Option.map_eq_some_iff] at hmem
    obtain ⟨a, ha, hname⟩ := hmem
    exact ⟨i, a, ha, hname, rfl⟩
  · rintro ⟨i, a, ha, rfl, rfl⟩
    refine ⟨(name a, i), List.mk_mem_zipIdx_iff_getElem?.mpr ?_, rfl⟩
    rw [List.getElem?_map, ha, Option.map_some]

end Names

namespace Description

open Json

/-- In the capabilities, the name of a capability leads to its index. -/
theorem get?_capabilities_iff {a : Assembly} (h : (a.capabilities.map (·.name)).Nodup)
    {key : String} {value : Json} :
    (capabilities a).get? [.key key, .key "index"] = some value ↔
      ∃ i c, a.capabilities[i]? = some c ∧ c.name = key ∧ value = .nat i := by
  have hmembers : capabilities a =
      sortedObject (a.capabilities.zipIdx.map fun entry => capability entry.1 entry.2) := rfl
  have hkeys : ((a.capabilities.zipIdx.map fun entry => capability entry.1 entry.2).map
      (·.1)).Nodup := by
    have hnames : (a.capabilities.zipIdx.map fun entry => capability entry.1 entry.2).map (·.1) =
        a.capabilities.map (·.name) := by
      conv_rhs => rw [← List.zipIdx_map_fst 0 a.capabilities]
      rw [List.map_map, List.map_map]
      rfl
    rwa [hnames]
  have hindex : ∀ c i, part? (.key "index") (capability c i).2 = some (.nat i) := by
    have hnodup : ["index", "function", "args", "feature"].Nodup := by decide
    refine fun _ _ => (part?_sortedObject ?_ _).trans rfl
    exact hnodup
  rw [get?, hmembers, Option.bind_eq_some_iff]
  simp only [get?_singleton, part?_sortedObject_iff hkeys, List.mem_map]
  constructor
  · rintro ⟨_, ⟨⟨c, i⟩, hmem, he⟩, hvalue⟩
    obtain ⟨rfl, rfl⟩ := Prod.mk.inj he
    have hi := (hindex c i).symm.trans hvalue
    exact ⟨i, c, List.mk_mem_zipIdx_iff_getElem?.mp hmem, rfl, (Option.some.inj hi).symm⟩
  · rintro ⟨i, c, hc, rfl, rfl⟩
    exact ⟨_, ⟨(c, i), List.mk_mem_zipIdx_iff_getElem?.mpr hc, rfl⟩, hindex c i⟩

end Description

namespace Config

variable {config : Config}

/-- Where the report has no errors, the description of the tables says the same as their
listings. -/
theorem described_as_listed (h : config.check.hasErrors = false) :
    (Assembly.build config).Described := by
  have hw := WellFormed.of_check h
  have hcapabilities : ((Assembly.build config).capabilities.map (·.name)).Nodup :=
    nodup_map_firstsBy [] config.capabilities
  have hanimations : ((Assembly.build config).animations.map (·.name)).Nodup := by
    rw [Assembly.map_name_animations]
    exact (Assembly.firstOccurrences_build config .animation).nodup
  have hsettings := Assembly.settingsInOrder_build config
  constructor
  · refine ⟨_, rfl, ?_⟩
    rw [List.length_map, List.length_zip, config.build_layers, List.length_map]
    exact Nat.min_self _
  · exact fun n hn => describesLayer_build hw hn
  · refine ⟨_, rfl, numbers_of_places (getElem?_rows _ Listing.capabilityRow) fun key value => ?_⟩
    exact Description.get?_capabilities_iff hcapabilities
  · refine ⟨_, rfl, numbers_of_places (getElem?_rows _ Listing.animationRow) fun key value => ?_⟩
    rw [← part?_places_iff hanimations, ← Json.get?_singleton]
    rfl
  · obtain ⟨first, later, hrows, _, _, hprinted⟩ := hsettings.printed
    refine ⟨_, _, hprinted, numbers_of_places (fun i => ?_) fun key value => ?_⟩
    · rw [← List.map_append, hrows]
      exact getElem?_rows _ _ i
    · rw [← part?_places_iff hsettings.distinct, ← Json.get?_singleton]
      rfl
  · exact fun map hmap => describesPixels_build hw hmap

/-- There are two layers, an animation, and two pixels with positions to describe. -/
theorem described_as_listed_glowing :
    glowing.check.hasErrors = false ∧ (Assembly.build glowing).Described :=
  have hcheck : glowing.check.hasErrors = false := by decide +kernel
  ⟨hcheck, described_as_listed hcheck⟩

example : (Assembly.build glowing).describe.get?
    [.key "Layers", .index 0, .key "triggers", .key "0x00"] =
      some (.strings ["again", "either"]) := by cbv

end Config

end Keymap
