import HornQuery.Engine.Host

namespace HornQuery

structure Provider where
  name : String
  priority : Nat
  /-- The program that asking the provider starts, if it starts one. -/
  launch? : Option Launch
  offer : Host → Option Executable

namespace Provider

/-- The priority of a provider that is asked when no other one offers anything. -/
def lowestPriority : Nat := 999

def fixed (executable : Executable) (priority : Nat) : Provider where
  name := "fixed"
  priority := priority
  launch? := none
  offer host := if host.tree.isFile executable.program then some executable else none

def swiInstallation (home : String) (priority : Nat) : Provider :=
  let program := Path.join (Path.join home "bin") "swipl"
  let executable := ((Executable.ofProgram program).withVariable "SWI_HOME_DIR" home)
    |>.withSearchPath "LD_LIBRARY_PATH" (Path.join home "lib")
  fixed executable priority

def probeArguments : List String := ["--version"]

/-- Offers a command that ends well when it is tried with the given arguments. -/
def probe (command : String) (args : List String) (priority : Nat) : Provider where
  name := command
  priority := priority
  launch? := some ⟨command, args, [], none⟩
  offer host :=
    match host.start? ⟨command, args, [], none⟩ with
    | some result => if result.status? = some 0 then some (.ofProgram command) else none
    | none => none

end Provider

structure ProviderRegistry where
  providers : List Provider
  resolved? : Option (Option Executable)

/-- What a resolution yields: the executable if there is one, the providers that were asked,
and the registry that keeps the answer. -/
structure Resolution where
  executable? : Option Executable
  asked : List Provider
  registry : ProviderRegistry

namespace ProviderRegistry

def empty : ProviderRegistry := ⟨[], none⟩

/-- The order in which providers are asked: a stable sort by priority. -/
def inOrder (providers : List Provider) : List Provider :=
  providers.mergeSort fun left right => left.priority ≤ right.priority

def register (registry : ProviderRegistry) (provider : Provider) : ProviderRegistry :=
  ⟨inOrder (registry.providers ++ [provider]), none⟩

def ask (host : Host) : List Provider → Option Executable × List Provider
  | [] => (none, [])
  | provider :: rest =>
      match provider.offer host with
      | some executable => (some executable, [provider])
      | none =>
          let (found, asked) := ask host rest
          (found, provider :: asked)

def resolve (registry : ProviderRegistry) (host : Host) : Resolution :=
  match registry.resolved? with
  | some executable? => ⟨executable?, [], registry⟩
  | none =>
      let (executable?, asked) := ask host registry.providers
      ⟨executable?, asked, { registry with resolved? := some executable? }⟩

def summary (registry : ProviderRegistry) : String :=
  let names := registry.providers.map fun provider =>
    s!"{provider.name}@{provider.priority}"
  let resolved := registry.resolved?.map fun executable? =>
    Text.Summary.optional (executable?.map Executable.summary)
  Text.Summary.record "ProviderRegistry" [
    ("providers", Text.Summary.texts names),
    ("resolved", Text.Summary.optional resolved)] false

end ProviderRegistry

end HornQuery
