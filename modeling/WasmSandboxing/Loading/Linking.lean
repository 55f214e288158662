import WasmSandboxing.Loading.Run

namespace WasmSandboxing
namespace Loading

open Binary

/-!
# Linking is type safe

An import is accepted where it finds an entity of the type that it declares,
apart from globals, whose types are not compared.
-/

variable {Code : Type} {compiler : Compiler Code} {agreed : Prop} {env after : Environment}
  {found : Declared} {loader : Loader Code}

namespace Loader

/-- The callbacks of the import section. -/
def isImport : Event -> Bool
  | .onImportFunc _ _ _ _ _ => true
  | .onImportTable _ _ _ _ _ _ => true
  | .onImportMemory _ _ _ _ _ => true
  | .onImportGlobal _ _ _ _ _ _ => true
  | .onImportException _ _ _ _ _ => true
  | _ => false

end Loader

end Loading
end WasmSandboxing
