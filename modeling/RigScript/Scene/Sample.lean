import RigScript.Scene

/-!
# A sample scene

A control with three scripts. The first two scripts are live: one bends an elbow and drives a
phase, the other weighs two influences. Nothing is connected to the third.

## Main definitions

* `RigScript.Scene.sample`: the scene
-/

namespace RigScript.Scene

/-- A construct that holds a script. -/
def construct (name : String) (lines : List String) : NodeDef where
  name := name
  kind := .other "expression"
  attributes := .ofList [("expression", Value.string ("\n".intercalate lines))]
  locked := []

/-- The attributes of the control. -/
def armAttributes : List (String × Value) :=
  [("tx", .doubleLinear 2.0), ("ty", .doubleLinear 0.5), ("rx", .double 0.25),
    ("bend", .double 0.0), ("weight", .double 0.0), ("phase", .double 0.0),
    ("label", .string "left arm")]

/-- The control that the scripts of the sample read and write. -/
def armControl : NodeDef where
  name := "arm_ctrl"
  kind := .other "transform"
  attributes := .ofList armAttributes
  locked := ["bend"]

/-- A control with three scripts. -/
def sample : Scene where
  nodes :=
    [armControl,
      construct "expression1"
        ["// elbow bend follows reach", "arm_ctrl.bend = (arm_ctrl.tx + 1) * 2;",
          "arm_ctrl.phase = arm_ctrl.tx % 1.5;"],
      construct "expression2" ["arm_ctrl.weight = min(arm_ctrl.ty, 0.25) + sin(arm_ctrl.rx);"],
      construct "expression3" ["arm_ctrl.weight = 99;"]]
  connections :=
    [(⟨"arm_ctrl", "tx"⟩, ⟨"expression1", "input[0]"⟩),
      (⟨"arm_ctrl", "ty"⟩, ⟨"expression2", "input[0]"⟩)]
  selection := ["arm_ctrl", "expression1"]

end RigScript.Scene
