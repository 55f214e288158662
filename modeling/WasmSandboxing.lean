import WasmSandboxing.CWriter.Invocation
import WasmSandboxing.CWriter.MemoryAccess
import WasmSandboxing.CWriter.Initializers
import WasmSandboxing.CWriter.Interpolations
import WasmSandboxing.CWriter.Conversions
import WasmSandboxing.CWriter.MangledNames
import WasmSandboxing.Wasm.TypeCheckerCorrect
import WasmSandboxing.Wasm.IntrusiveSequences
import WasmSandboxing.Wasm.LocalTypes
import WasmSandboxing.Wasm.VisitorStacks
import WasmSandboxing.WasmRt.Layout
import WasmSandboxing.WasmRt.Setjmp
import WasmSandboxing.WasmRt.IndirectCall
import WasmSandboxing.Host.PointerTranslation
import WasmSandboxing.Host.Invoke
import WasmSandboxing.Host.Callbacks
import WasmSandboxing.Host.CallbackArguments
import WasmSandboxing.Interp.HostCalls
import WasmSandboxing.Interp.DropKeep
import WasmSandboxing.Interp.SimdLanes
import WasmSandboxing.CWriter.IntOperators
import WasmSandboxing.Text.ResolveNamesExact
import WasmSandboxing.Text.CircularArray
import WasmSandboxing.Text.Duplicates
import WasmSandboxing.Text.NamePipeline
import WasmSandboxing.Text.Quoted
import WasmSandboxing.Text.Scanner
import WasmSandboxing.Text.Immediates
import WasmSandboxing.Text.ScriptActions
import WasmSandboxing.Text.SourceLines
import WasmSandboxing.Text.StringView
import WasmSandboxing.Text.TypeUsesExact
import WasmSandboxing.Text.Folding
import WasmSandboxing.Text.LexicalErrors
import WasmSandboxing.Binary.BodiesApart
import WasmSandboxing.Binary.Complete
import WasmSandboxing.Binary.Gated
import WasmSandboxing.Binary.OpcodeTable
import WasmSandboxing.Binary.SizeFixups
import WasmSandboxing.Binary.Utf8
import WasmSandboxing.Binary.NamesSafe
import WasmSandboxing.Loading.FailedLoad
import WasmSandboxing.Loading.Typed
import WasmSandboxing.Literal.RoundTrip
import WasmSandboxing.Tools.CommandLine
import WasmSandboxing.Literal.HexExact
