import NodeGet.Core.JsonText
import NodeGet.Core.Uuid

/-! Tasks and how they are stored (`ng-task/src/types/mod.rs`).

A task with parameters is stored as an object with one member, named after the
task; one without is stored as its name alone. URLs are kept as their text. -/
namespace NodeGet.Task
open NodeGet.Core

structure WebShellTask where
  url : String
  terminalId : Uuid
deriving DecidableEq

structure ExecuteTask where
  cmd : String
  args : List String
deriving DecidableEq

/-- A `BTreeMap<String, String>`: its entries in key order. -/
structure Headers where
  entries : List (String × String)
  sorted : entries.Pairwise fun a b => a.1 < b.1
deriving DecidableEq

structure HttpRequestTask where
  url : String
  method : String
  headers : Headers
  body : Option String
  bodyBase64 : Option String
  ip : Option String
deriving DecidableEq

inductive DnsRecordType where
  | a | aaaa | cname | mx | txt | ns | srv | ptr | soa | caa
deriving DecidableEq

def DnsRecordType.name : DnsRecordType → String
  | a => "a"
  | aaaa => "aaaa"
  | cname => "cname"
  | mx => "mx"
  | txt => "txt"
  | ns => "ns"
  | srv => "srv"
  | ptr => "ptr"
  | soa => "soa"
  | caa => "caa"

structure DnsTask where
  domain : String
  recordTypes : List DnsRecordType
  dnsServer : Option String
deriving DecidableEq

inductive TaskEventType where
  | ping (target : String)
  | tcpPing (target : String)
  | httpPing (url : String)
  | webShell (task : WebShellTask)
  | execute (task : ExecuteTask)
  | httpRequest (task : HttpRequestTask)
  | dns (task : DnsTask)
  | readConfig
  | editConfig (content : String)
  | ip
  | version
  | selfUpdate (tag : String)
deriving DecidableEq

namespace TaskEventType

def taskName : TaskEventType → String
  | ping _ => "ping"
  | tcpPing _ => "tcp_ping"
  | httpPing _ => "http_ping"
  | webShell _ => "web_shell"
  | execute _ => "execute"
  | httpRequest _ => "http_request"
  | dns _ => "dns"
  | editConfig _ => "edit_config"
  | readConfig => "read_config"
  | ip => "ip"
  | version => "version"
  | selfUpdate _ => "self_update"

def optionJson (value : Option String) : Json := value.elim .null .str

/-- The parameters of a task that has some. -/
def parameters? : TaskEventType → Option Json
  | ping target | tcpPing target => some (.str target)
  | httpPing url => some (.str url)
  | webShell task => some (.obj [("terminal_id", .str task.terminalId.text), ("url", .str task.url)])
  | execute task => some (.obj [("args", .arr (task.args.map .str)), ("cmd", .str task.cmd)])
  | httpRequest task =>
    some (.obj [("body", optionJson task.body), ("body_base64", optionJson task.bodyBase64),
      ("headers", .obj (task.headers.entries.map fun header => (header.1, .str header.2))),
      ("ip", optionJson task.ip), ("method", .str task.method), ("url", .str task.url)])
  | dns task =>
    some (.obj [("dns_server", optionJson task.dnsServer), ("domain", .str task.domain),
      ("record_types", .arr (task.recordTypes.map fun r => .str r.name))])
  | editConfig content => some (.str content)
  | selfUpdate tag => some (.str tag)
  | readConfig | ip | version => none

/-- The value in the column `task_event_type`. -/
def toJson (event : TaskEventType) : Json :=
  event.parameters?.elim (.str event.taskName) fun parameters => .obj [(event.taskName, parameters)]

end TaskEventType

/-- The names a request without a type must be allowed to see. -/
def allTaskTypes : List String :=
  ["ping", "tcp_ping", "http_ping", "http_request", "web_shell", "execute", "read_config", "edit_config", "ip",
    "version", "dns", "self_update"]

theorem taskName_mem (event : TaskEventType) : event.taskName ∈ allTaskTypes := by
  cases event <;> simp [TaskEventType.taskName, allTaskTypes]

/-- No task name is a pattern. -/
theorem star_notMem_taskName (event : TaskEventType) : '*' ∉ event.taskName.toList := by
  have hall : ∀ name ∈ allTaskTypes, '*' ∉ name.toList := by decide
  exact hall _ (taskName_mem event)

end NodeGet.Task
