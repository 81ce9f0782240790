import NativeBindings.Header.Guard

/-!
# Settings of a run

How the generated code is named, where its functions are imported from, and which symbols count as
known before the header is read.
-/

namespace NativeBindings

/-- Leaves out what the header keeps only for older programs. -/
def defaultKnownDefines : Symbols :=
  .ofList [("IMGUI_DISABLE_OBSOLETE_FUNCTIONS", ""), ("IMGUI_DISABLE_OBSOLETE_KEYIO", "")]

/-- The settings of a run. -/
structure Options where
  /-- The namespace of every document. -/
  namespaceName : String := "DearImGuiBindings"
  /-- The class that holds constants and functions. -/
  nativeClass : String := "ImGuiNative"
  /-- The library that functions are imported from. -/
  library : String := "cimgui"
  /-- The calling convention of functions and delegates. -/
  callingConvention : String := "Cdecl"
  /-- What the name of every document begins with. -/
  filePrefix : String := "ImGui"
  /-- The symbols known from the start. -/
  knownDefines : Symbols := defaultKnownDefines

namespace Options

/-- The attribute of a delegate. -/
def delegateAttribute (o : Options) : String :=
  "UnmanagedFunctionPointer(CallingConvention." ++ o.callingConvention ++ ")"

/-- The attribute of an imported function. -/
def importAttribute (o : Options) : String :=
  "DllImport(\"" ++ o.library ++ "\", CallingConvention = CallingConvention." ++
    o.callingConvention ++ ")"

/-- The name of the document of a category. -/
def documentName (o : Options) (category : String) : String :=
  o.filePrefix ++ "." ++ category ++ ".cs"

end Options

end NativeBindings
