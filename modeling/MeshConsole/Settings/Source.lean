import MeshConsole.Command.Flag
import MeshConsole.Settings.File

/-!
# Layers of settings

A source says what it has for a key, as a text, an integer or a truth value. A value that is not of
the wanted kind counts as absent, so that the next source is asked.
-/

namespace MeshConsole.Settings

structure Source where
  text? : Text → Option Text
  int? : Text → Option Int
  bool? : Text → Option Bool

def nonEmpty (t : Text) : Option Text := if t.isEmpty then none else some t

def intOf? (t : Text) : Option Int := (Numeral.readInt t).toOption

namespace Source

def ofEnvironment (environment : Table Text Text) : Source where
  text? key := environment.get? key >>= nonEmpty
  int? key := environment.get? key >>= intOf?
  bool? key := environment.get? key >>= Numeral.readBool?

/-- Flags keep the kind they were read as. -/
def ofFlags (flags : Table Text Command.FlagValue) : Source where
  text? key :=
    match flags.get? key with
    | some (.text value) => nonEmpty value
    | _ => none
  int? key :=
    match flags.get? key with
    | some (.int value) => some value
    | _ => none
  bool? key :=
    match flags.get? key with
    | some (.bool value) => some value
    | _ => none

def ofFile (values : FileValues) : Source where
  text? key := values.get? key >>= fun value => nonEmpty value.scalarText
  int? key := values.get? key >>= fun value => intOf? value.scalarText
  bool? key := values.get? key >>= fun value => Numeral.readBool? value.scalarText

end Source

/-- Sources in order of precedence. -/
abbrev Layers := List Source

namespace Layers

def text (layers : Layers) (key : Text) (standard : Text) : Text :=
  (layers.findSome? fun source => source.text? key).getD standard

def int (layers : Layers) (key : Text) (standard : Int) : Int :=
  (layers.findSome? fun source => source.int? key).getD standard

def bool (layers : Layers) (key : Text) (standard : Bool) : Bool :=
  (layers.findSome? fun source => source.bool? key).getD standard

/-- An integer key that counts milliseconds. -/
def millis (layers : Layers) (key : Text) (standard : Int) : Duration :=
  Duration.ofMillis (layers.int key standard)

end Layers

end MeshConsole.Settings
