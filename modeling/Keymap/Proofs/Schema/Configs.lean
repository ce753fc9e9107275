import Keymap.Config.Basic
import Keymap.Proofs.Schema.Records

/-!
# The schema is faithful

Every value of the schema is read back from what is written for it, whatever form it has:
absent options as well as given ones, and every form of every tagged element. Only the
names of a text map must ascend, as they do in every map that is read.
-/

namespace Keymap.Config

open Codec

variable {depth : Nat}

section Capabilities

/-- The codec of capability arguments writes every argument. -/
theorem Argument.writes (arg : Argument) : Argument.codec.Writes (depth + 1) arg :=
  writes_record (by decide) rfl ⟨writes_string _, writes_uint8 _, trivial⟩

/-- Every feature of a capability is written by its name. -/
theorem Feature.writes (feature : Feature) : (named Feature.names).Writes depth feature :=
  writes_named (by cases feature <;> rfl)

/-- The codec of capabilities writes every capability. -/
theorem Capability.writes (capability : Capability) :
    Capability.codec.Writes (depth + 3) capability :=
  writes_record (by decide) rfl
    ⟨writes_string _, writes_string _, writes_list fun arg _ => arg.writes, Feature.writes _,
      trivial⟩

/-- A text is written, or that there is none. -/
theorem writes_optionalString (text : Option String) : (option string).Writes depth text :=
  writes_option fun text _ => ⟨writes_string text, nofun⟩

/-- The codec of the routing writes every routing. -/
theorem Routing.writes (routing : Routing) : Routing.codec.Writes (depth + 1) routing := by
  rw [Routing.codec]
  exact writes_record (by decide) rfl
    ⟨writes_string _, writes_string _, writes_string _, writes_string _, writes_string _,
      writes_string _, writes_string _, writes_optionalString _, trivial⟩

end Capabilities

section Results

/-- Every mode of a layer is written by its name. -/
theorem LayerMode.writes (mode : LayerMode) : (settledNamed LayerMode.names).Writes depth mode :=
  writes_settledNamed (by cases mode <;> rfl)

/-- The codec of result elements writes an element of any kind. -/
theorem ResultElement.writes (element : ResultElement) :
    ResultElement.codec.Writes (depth + 2) element := by
  cases element with
  | capability name args =>
    exact writes_tagged rfl rfl rfl (by decide)
      ⟨writes_string _, writes_list fun n _ => writes_int64 n, trivial⟩
  | usb code => exact writes_tagged rfl rfl rfl (by decide) ⟨writes_uint32 _, trivial⟩
  | consumer code => exact writes_tagged rfl rfl rfl (by decide) ⟨writes_uint32 _, trivial⟩
  | system code => exact writes_tagged rfl rfl rfl (by decide) ⟨writes_uint32 _, trivial⟩
  | layer mode n =>
    exact writes_tagged rfl rfl rfl (by decide) ⟨mode.writes, writes_uint32 _, trivial⟩
  | animation settings => exact writes_tagged rfl rfl rfl (by decide) ⟨writes_string _, trivial⟩
  | none => exact writes_tagged rfl rfl rfl (by decide) trivial

/-- The codec of results writes every result. -/
theorem Result.writes (result : Result) : Result.codec.Writes (depth + 5) result :=
  writes_record (by decide) rfl
    ⟨writes_string _, writes_list fun step _ => writes_list fun element _ => element.writes,
      trivial⟩

end Results

section Triggers

/-- Every schedule of a key is written by its name. -/
theorem Schedule.writes (state : Schedule) : (settledNamed Schedule.names).Writes depth state :=
  writes_settledNamed (by cases state <;> rfl)

/-- Every event of an animation is written by its name. -/
theorem AnimationEvent.writes (event : AnimationEvent) :
    (settledNamed AnimationEvent.names).Writes depth event :=
  writes_settledNamed (by cases event <;> rfl)

/-- A mode of a layer is written, or that there is none. -/
theorem writes_optionalMode (mode : Option LayerMode) :
    (option (settledNamed LayerMode.names)).Writes depth mode :=
  writes_option fun mode _ => ⟨mode.writes, nofun⟩

/-- The codec of trigger elements writes an element of any kind. -/
theorem TriggerElement.writes (element : TriggerElement) :
    TriggerElement.codec.Writes (depth + 1) element := by
  cases element with
  | switch scanCode board state =>
    exact writes_tagged rfl rfl rfl (by decide)
      ⟨writes_uint16 _, writes_uint8 _, state.writes, trivial⟩
  | indicator code state =>
    exact writes_tagged rfl rfl rfl (by decide) ⟨writes_uint16 _, state.writes, trivial⟩
  | layer n mode state =>
    exact writes_tagged rfl rfl rfl (by decide)
      ⟨writes_uint16 _, writes_optionalMode _, state.writes, trivial⟩
  | animation name event =>
    exact writes_tagged rfl rfl rfl (by decide) ⟨writes_string _, event.writes, trivial⟩
  | analog code threshold =>
    exact writes_tagged rfl rfl rfl (by decide) ⟨writes_uint16 _, writes_uint8 _, trivial⟩
  | generic code uid param =>
    exact writes_tagged rfl rfl rfl (by decide)
      ⟨writes_uint8 _, writes_uint16 _, writes_uint8 _, trivial⟩

/-- The codec of triggers writes every trigger. -/
theorem Trigger.writes (trigger : Trigger) : Trigger.codec.Writes (depth + 4) trigger :=
  writes_record (by decide) rfl
    ⟨writes_string _, writes_list fun step _ => writes_list fun element _ => element.writes,
      writes_string _, trivial⟩

end Triggers

section Layers

/-- The codec of layers writes every layer. -/
theorem Layer.writes (layer : Layer) : Layer.codec.Writes (depth + 2) layer :=
  writes_record (by decide) rfl
    ⟨writes_string _, writes_list fun source _ => writes_string source,
      writes_list fun trigger _ => writes_string trigger, trivial⟩

/-- The codec of positions writes every position, with its fractions. -/
theorem Position.writes (position : Position) : Position.codec.Writes (depth + 1) position := by
  rw [Position.codec]
  exact writes_record (by decide) rfl
    ⟨writes_uint16 _, writes_fraction _, writes_fraction _, writes_fraction _, writes_fraction _,
      writes_fraction _, writes_fraction _, trivial⟩

end Layers

section Pixels

/-- The codec of buffers writes every buffer. -/
theorem Buffer.writes (buffer : Buffer) : Buffer.codec.Writes (depth + 1) buffer :=
  writes_record (by decide) rfl
    ⟨writes_uint32 _, writes_uint8 _, writes_option fun base _ => ⟨writes_uint32 base, nofun⟩,
      writes_string _, trivial⟩

/-- The codec of pixels writes every pixel. -/
theorem Pixel.writes (pixel : Pixel) : Pixel.codec.Writes (depth + 2) pixel :=
  writes_record (by decide) rfl
    ⟨writes_uint16 _, writes_list fun channel _ => writes_uint32 channel,
      writes_option fun code _ => ⟨writes_uint16 code, nofun⟩, trivial⟩

/-- The codec of frame formats writes every format. -/
theorem FrameFormat.writes (format : FrameFormat) :
    FrameFormat.codec.Writes (depth + 1) format := by
  rw [FrameFormat.codec]
  exact writes_record (by decide) rfl ⟨writes_uint8 _, writes_uint8 _, trivial⟩

/-- The codec of pixel sections writes every section. -/
theorem PixelSection.writes (pixels : PixelSection) :
    PixelSection.codec.Writes (depth + 4) pixels :=
  writes_record (by decide) rfl
    ⟨writes_list fun buffer _ => buffer.writes, writes_list fun pixel _ => pixel.writes,
      writes_list fun row _ => writes_list fun cell _ => writes_uint16 cell,
      writes_optionalString _, FrameFormat.writes _, trivial⟩

end Pixels

section Animations

/-- An integer is read back as an absolute coordinate, and a fraction as a fraction. -/
theorem Coordinate.writes (coordinate : Coordinate) : Coordinate.codec.Writes depth coordinate := by
  cases coordinate with
  | absolute n =>
    have hn : uint16.decode (Node.ofJson (uint16.encode n)) = .ok n :=
      (@writes_uint16 depth n).faithful
    refine ⟨?_, (writes_uint16 n).fits⟩
    rw [Faithful, Coordinate.codec]
    dsimp only
    rw [hn]
    rfl
  | fraction x =>
    have hmismatch : uint16.decode (.scalar (.number (.fraction x))) =
        .error (mismatch (.unsigned 16) (.scalar (.number (.fraction x)))) := rfl
    have hx : Codec.fraction.encode x = .scalar (.number (.fraction x)) := rfl
    refine ⟨?_, .fraction x⟩
    rw [Faithful, Coordinate.codec]
    dsimp only
    rw [hx, Node.ofJson, hmismatch]
    rfl

/-- The codec of addresses writes an address of any mode. -/
theorem Address.writes (address : Address) : Address.codec.Writes (depth + 1) address := by
  cases address with
  | index n => exact writes_tagged rfl rfl rfl (by decide) ⟨writes_uint32 _, trivial⟩
  | scanCode code => exact writes_tagged rfl rfl rfl (by decide) ⟨writes_uint32 _, trivial⟩
  | rect column row =>
    exact writes_tagged rfl rfl rfl (by decide) ⟨column.writes, row.writes, trivial⟩
  | columnFill column secondary =>
    exact writes_tagged rfl rfl rfl (by decide) ⟨column.writes, writes_uint16 _, trivial⟩
  | rowFill row secondary =>
    exact writes_tagged rfl rfl rfl (by decide) ⟨row.writes, writes_uint16 _, trivial⟩
  | relativeIndex offset => exact writes_tagged rfl rfl rfl (by decide) ⟨writes_int32 _, trivial⟩
  | relativeRect column row =>
    exact writes_tagged rfl rfl rfl (by decide) ⟨writes_int16 _, writes_int16 _, trivial⟩
  | relativeColumnFill column secondary =>
    exact writes_tagged rfl rfl rfl (by decide) ⟨writes_int16 _, writes_int16 _, trivial⟩
  | relativeRowFill row secondary =>
    exact writes_tagged rfl rfl rfl (by decide) ⟨writes_int16 _, writes_int16 _, trivial⟩

theorem ChangeOp.writes (op : ChangeOp) : (named ChangeOp.names).Writes depth op :=
  writes_named (by cases op <;> rfl)

/-- The codec of pixel records writes every record. -/
theorem PixelRecord.writes (record : PixelRecord) : PixelRecord.codec.Writes (depth + 2) record :=
  writes_record (by decide) rfl
    ⟨Address.writes _, ChangeOp.writes _, writes_list fun byte _ => writes_uint8 byte, trivial⟩

/-- The codec of frames writes every frame. -/
theorem Frame.writes (frame : Frame) : Frame.codec.Writes (depth + 4) frame :=
  writes_record (by decide) rfl
    ⟨writes_uint32 _, writes_list fun record _ => record.writes, trivial⟩

theorem FrameFunction.writes (function : FrameFunction) :
    (named FrameFunction.names).Writes depth function :=
  writes_named (by cases function; rfl)

theorem PixelFunction.writes (function : PixelFunction) :
    (named PixelFunction.names).Writes depth function :=
  writes_named (by cases function <;> rfl)

theorem ReplaceMode.writes (mode : ReplaceMode) : (named ReplaceMode.names).Writes depth mode :=
  writes_named (by cases mode <;> rfl)

theorem PlayState.writes (state : PlayState) : (named PlayState.names).Writes depth state :=
  writes_named (by cases state <;> rfl)

/-- The codec of playback settings writes all of them. -/
theorem Playback.writes (playback : Playback) : Playback.codec.Writes (depth + 1) playback :=
  writes_record (by decide) rfl
    ⟨writes_uint16 _, writes_uint16 _, writes_bool _, writes_uint16 _, writes_bool _,
      FrameFunction.writes _, PixelFunction.writes _, ReplaceMode.writes _, PlayState.writes _,
      trivial⟩

/-- The codec of animations writes every animation. -/
theorem Animation.writes (animation : Animation) : Animation.codec.Writes (depth + 6) animation :=
  writes_record (by decide) rfl
    ⟨writes_string _, Playback.writes _, writes_list fun frame _ => frame.writes, trivial⟩

/-- The codec of animation settings writes all of them. -/
theorem AnimationSettings.writes (settings : AnimationSettings) :
    AnimationSettings.codec.Writes (depth + 2) settings :=
  writes_record (by decide) rfl
    ⟨writes_string _, writes_string _, writes_optionalString _, Playback.writes _, trivial⟩

end Animations

section Configs

/-- The codec of sources writes all of them. -/
theorem Sources.writes (sources : Sources) : Sources.codec.Writes (depth + 2) sources :=
  writes_record (by decide) rfl
    ⟨writes_list fun file _ => writes_string file, writes_list fun file _ => writes_string file,
      writes_list fun file _ => writes_string file, trivial⟩

/-- The codec of configurations writes every one whose defines are in order. -/
theorem writes {config : Config} (h : Ascends config.defines) :
    codec.Writes (depth + 8) config :=
  writes_record (by decide) rfl
    ⟨writes_uint32 _, writes_string _, Sources.writes _, writes_textMap h, writes_uint16 _,
      writes_option fun bits _ => ⟨writes_uint8 bits, nofun⟩,
      writes_list fun code _ => writes_uint16 code, writes_list fun count _ => writes_uint16 count,
      writes_list fun capability _ => capability.writes, Routing.writes _,
      writes_list fun result _ => result.writes, writes_list fun trigger _ => trigger.writes,
      writes_list fun layer _ => layer.writes, writes_list fun position _ => position.writes,
      writes_option fun pixels _ => ⟨pixels.writes, nofun⟩,
      writes_list fun animation _ => animation.writes,
      writes_list fun settings _ => settings.writes, trivial⟩

/-- The names of the definitions ascend in every configuration that is read. -/
theorem ascends_of_decode {node : Node} {config : Config} (h : codec.decode node = .ok config) :
    Ascends config.defines := by
  obtain ⟨⟨version, name, sources, defines, rest⟩, hgiven, rfl⟩ := given_of_record h
  obtain ⟨_, _, _, hdefines, _⟩ := hgiven
  rcases hdefines with hdefault | ⟨node, hread⟩
  · cases hdefault
    exact List.Pairwise.nil
  · exact ascends_of_textMap hread

end Configs

end Keymap.Config
