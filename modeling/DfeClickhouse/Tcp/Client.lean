import DfeClickhouse.Library.Machine
import DfeClickhouse.Tcp.Handshake
import DfeClickhouse.Tcp.Retry
import DfeClickhouse.Tls

/-!
# The TCP client

A client owns its endpoints, credentials, settings and trust.  Its pool is built on first
use, from what it has then, and clones share it.  A builder that changes what the pool was
built from drops it, and one that changes what is sent with a query leaves it.
-/

namespace DfeClickhouse.Tcp

open Library Native

/-! ## Configuration -/

/-- The dials of a pool.  Durations are in nanoseconds. -/
structure PoolConfig where
  maxSize : Nat
  acquireTimeout : Option Nat
  createTimeout : Option Nat
  recycleTimeout : Option Nat
  maxLifetime : Option Nat
  readTimeout : Option Nat

def PoolConfig.default : PoolConfig where
  maxSize := 8
  acquireTimeout := some (30 * 10 ^ 9)
  createTimeout := some (10 * 10 ^ 9)
  recycleTimeout := some (5 * 10 ^ 9)
  maxLifetime := none
  readTimeout := none

inductive ConnectKindConfig
  | plain
  | tls (serverName : String)

structure TcpClientConfig where
  endpoints : List String
  kind : ConnectKindConfig
  handshake : HandshakeConfig
  pool : PoolConfig
  retry : Option RetryPolicy

inductive ConnectKind (Config : Type)
  | plain
  | tls (serverName : String) (config : Config)
  /-- A trust was configured and could not be resolved.  Every connect fails. -/
  | tlsFailClosed

/-- What a client has made of its trust when its pool is built. -/
inductive TcpTls (Config : Type)
  | notConfigured
  | resolved (config : Config)
  | configuredButFailed

/-- A pool, with what its manager opens connections with. -/
structure NativePool (Config : Type) where
  endpoints : List String
  kind : ConnectKind Config
  config : HandshakeConfig
  maxLifetime : Option Nat
  readTimeout : Option Nat
  createTimeout : Option Nat
  maxSize : Nat
  waitTimeout : Option Nat
  recycleTimeout : Option Nat

/-- How a connection is opened before its handshake. -/
inductive Transport (Config : Type)
  | plain
  | tls (serverName : String) (config : Config)

def trustUnresolved : Error :=
  .custom ("tcp: TLS trust was configured but could not be resolved; " ++
    "refusing to connect with default trust")

/-- The transport a connection of this kind opens, or why it opens none. -/
def ConnectKind.transport {Config : Type} : ConnectKind Config → Except Error (Transport Config)
  | .plain => .ok .plain
  | .tls serverName config => .ok (.tls serverName config)
  | .tlsFailClosed => .error trustUnresolved

section Build

variable {Anchor Config : Type} (host : TlsHost Anchor Config)

def connectKind (kind : ConnectKindConfig) (tls : TcpTls Config) :
    Except Error (ConnectKind Config) :=
  match kind, tls with
  | .plain, _ => .ok .plain
  | .tls serverName, .resolved config => .ok (.tls serverName config)
  | .tls serverName, .notConfigured => do
      let config ← host.buildClientConfig (.trust .default)
      return .tls serverName config
  | .tls _, .configuredButFailed => .ok .tlsFailClosed

/-- Build a pool; `none` where the list of endpoints is empty, which is asserted. -/
def buildPool (endpoints : List String) (kind : ConnectKindConfig) (config : HandshakeConfig)
    (poolCfg : PoolConfig) (tls : TcpTls Config) : Option (Except Error (NativePool Config)) :=
  if endpoints.isEmpty then
    none
  else
    some do
      let kind ← connectKind host kind tls
      return {
        endpoints
        kind
        config
        maxLifetime := poolCfg.maxLifetime
        readTimeout := poolCfg.readTimeout
        createTimeout := poolCfg.createTimeout
        maxSize := poolCfg.maxSize
        waitTimeout := poolCfg.acquireTimeout
        recycleTimeout := poolCfg.recycleTimeout }

/-- What a client makes of its trust; an error of the resolution is dropped. -/
def resolveTls : Option (TlsConfigSource Config) → TcpTls Config
  | none => .notConfigured
  | some source =>
      match host.buildClientConfig source with
      | .ok config => .resolved config
      | .error _ => .configuredButFailed

end Build

def databaseSetting : ByteString := ⟨utf8 "database", by decide +kernel⟩

def roleSetting : ByteString := ⟨utf8 "role", by decide +kernel⟩

/-- Makes the server send JSON columns as String. -/
def jsonAsStringSetting : ByteString :=
  ⟨utf8 "output_format_native_write_json_as_string", by decide +kernel⟩

def oneText : ByteString := ⟨utf8 "1", by decide +kernel⟩

/-! ## The builders -/

/-- A client over the native protocol. -/
structure TcpClient (Config : Type) where
  config : TcpClientConfig
  settings : List (ByteString × ByteString)
  roles : List ByteString
  jsonAsString : Bool
  tls : Option (TlsConfigSource Config)
  /-- What is sent with every query. -/
  querySettings : List (ByteString × ByteString)
  /-- The pool it holds, by its position among those of the process. -/
  pool : Option Nat

namespace TcpClient

variable {Config : Type}

/-- The settings that the fields of a client make. -/
def currentSettings (client : TcpClient Config) : List (ByteString × ByteString) :=
  (databaseSetting, client.config.handshake.database) ::
    (if client.jsonAsString then [(jsonAsStringSetting, oneText)] else []) ++
    client.settings ++ client.roles.map fun role => (roleSetting, role)

def refreshQuerySettings (client : TcpClient Config) : TcpClient Config :=
  { client with querySettings := client.currentSettings }

def discardPool (client : TcpClient Config) : TcpClient Config :=
  { client with pool := none }

def new (addr : String) : TcpClient Config :=
  refreshQuerySettings {
    config := {
      endpoints := [addr]
      kind := .plain
      handshake := .default
      pool := .default
      retry := none }
    settings := []
    roles := []
    jsonAsString := true
    tls := none
    querySettings := []
    pool := none }

def newTls (addr serverName : String) : TcpClient Config :=
  let client := new addr
  discardPool { client with config := { client.config with kind := .tls serverName } }

/-- A builder that changes the dials of the pool. -/
def withDials (client : TcpClient Config) (change : PoolConfig → PoolConfig) : TcpClient Config :=
  discardPool { client with config := { client.config with pool := change client.config.pool } }

/-- A builder that changes what is said in the handshake. -/
def withHandshake (client : TcpClient Config) (change : HandshakeConfig → HandshakeConfig) :
    TcpClient Config :=
  { client with
    config := { client.config with handshake := change client.config.handshake } }

/-- Replace the endpoints; `none` where there are none, which is asserted. -/
def withAddrs (client : TcpClient Config) (addrs : List String) : Option (TcpClient Config) :=
  if addrs.isEmpty then none
  else some (discardPool { client with config := { client.config with endpoints := addrs } })

def withDatabase (client : TcpClient Config) (database : ByteString) : TcpClient Config :=
  discardPool (refreshQuerySettings (client.withHandshake ({ · with database })))

def withUser (client : TcpClient Config) (user : ByteString) : TcpClient Config :=
  discardPool (client.withHandshake ({ · with user }))

def withPassword (client : TcpClient Config) (password : ByteString) : TcpClient Config :=
  discardPool (client.withHandshake ({ · with password }))

def withQuotaKey (client : TcpClient Config) (quotaKey : ByteString) : TcpClient Config :=
  discardPool (client.withHandshake ({ · with quotaKey }))

def withSetting (client : TcpClient Config) (name value : ByteString) : TcpClient Config :=
  refreshQuerySettings { client with settings := client.settings ++ [(name, value)] }

def withJsonAsString (client : TcpClient Config) (on : Bool) : TcpClient Config :=
  refreshQuerySettings { client with jsonAsString := on }

def withRoles (client : TcpClient Config) (roles : List ByteString) : TcpClient Config :=
  refreshQuerySettings { client with roles }

def withRetry (client : TcpClient Config) (retry : Option RetryPolicy) : TcpClient Config :=
  { client with config := { client.config with retry } }

def withPoolSize (client : TcpClient Config) (maxSize : Nat) : TcpClient Config :=
  client.withDials ({ · with maxSize })

def withPoolAcquireTimeout (client : TcpClient Config) (acquireTimeout : Option Nat) :
    TcpClient Config :=
  client.withDials ({ · with acquireTimeout })

def withPoolCreateTimeout (client : TcpClient Config) (createTimeout : Option Nat) :
    TcpClient Config :=
  client.withDials ({ · with createTimeout })

def withPoolMaxLifetime (client : TcpClient Config) (maxLifetime : Option Nat) :
    TcpClient Config :=
  client.withDials ({ · with maxLifetime })

def withReadTimeout (client : TcpClient Config) (readTimeout : Option Nat) : TcpClient Config :=
  client.withDials ({ · with readTimeout })

def withTlsConfig (client : TcpClient Config) (config : Config) : TcpClient Config :=
  discardPool { client with tls := some (.explicit config) }

def withTlsTrust (client : TcpClient Config) (trust : TlsTrust) : TcpClient Config :=
  discardPool { client with tls := some (.trust trust) }

end TcpClient

/-- The calls that change a client. -/
inductive Builder (Config : Type)
  | addrs (given : List String)
  | database (name : ByteString)
  | user (name : ByteString)
  | password (text : ByteString)
  | quotaKey (key : ByteString)
  | setting (name value : ByteString)
  | jsonAsString (on : Bool)
  | roles (names : List ByteString)
  | retry (policy : Option RetryPolicy)
  | poolSize (maxSize : Nat)
  | poolAcquireTimeout (timeout : Option Nat)
  | poolCreateTimeout (timeout : Option Nat)
  | poolMaxLifetime (lifetime : Option Nat)
  | readTimeout (timeout : Option Nat)
  | tlsConfig (config : Config)
  | tlsTrust (trust : TlsTrust)

namespace Builder

variable {Config : Type}

/-- `none` where the call panics. -/
def apply (client : TcpClient Config) : Builder Config → Option (TcpClient Config)
  | addrs given => client.withAddrs given
  | database name => some (client.withDatabase name)
  | user name => some (client.withUser name)
  | password text => some (client.withPassword text)
  | quotaKey key => some (client.withQuotaKey key)
  | setting name value => some (client.withSetting name value)
  | jsonAsString on => some (client.withJsonAsString on)
  | roles names => some (client.withRoles names)
  | retry policy => some (client.withRetry policy)
  | poolSize maxSize => some (client.withPoolSize maxSize)
  | poolAcquireTimeout timeout => some (client.withPoolAcquireTimeout timeout)
  | poolCreateTimeout timeout => some (client.withPoolCreateTimeout timeout)
  | poolMaxLifetime lifetime => some (client.withPoolMaxLifetime lifetime)
  | readTimeout timeout => some (client.withReadTimeout timeout)
  | tlsConfig config => some (client.withTlsConfig config)
  | tlsTrust trust => some (client.withTlsTrust trust)

end Builder

/-! ## What a pool is built from -/

/-- What a client builds its pool from. -/
structure PoolInputs (Config : Type) where
  endpoints : List String
  kind : ConnectKindConfig
  handshake : HandshakeConfig
  dials : PoolConfig
  tls : Option (TlsConfigSource Config)

def TcpClient.inputs {Config : Type} (client : TcpClient Config) : PoolInputs Config where
  endpoints := client.config.endpoints
  kind := client.config.kind
  handshake := client.config.handshake
  dials := client.config.pool
  tls := client.tls

def PoolInputs.build {Anchor Config : Type} (inputs : PoolInputs Config)
    (host : TlsHost Anchor Config) : Option (Except Error (NativePool Config)) :=
  buildPool host inputs.endpoints inputs.kind inputs.handshake inputs.dials
    (resolveTls host inputs.tls)

/-- A pool with what it was built from, and the host as it was then. -/
structure BuiltPool (Anchor Config : Type) where
  inputs : PoolInputs Config
  host : TlsHost Anchor Config
  pool : NativePool Config
  built : inputs.build host = some (.ok pool)

/-! ## A process -/

/-- The clients of a process, and the pools they have built. -/
structure Process (Anchor Config : Type) where
  clients : List (TcpClient Config)
  pools : List (BuiltPool Anchor Config)

namespace Process

inductive Action (Anchor Config : Type)
  | new (addr : String)
  | newTls (addr serverName : String)
  | clone (index : Nat)
  | configure (index : Nat) (builder : Builder Config)
  /-- Take the pool of a client, on a host with these roots. -/
  | pool (index : Nat) (host : TlsHost Anchor Config)

variable {Anchor Config : Type}

def empty : Process Anchor Config := ⟨[], []⟩

/-- The pool a client holds, or one that is built for it; `none` where the build
panics. -/
def takePool (process : Process Anchor Config) (index : Nat) (client : TcpClient Config)
    (host : TlsHost Anchor Config) : Option (Process Anchor Config) :=
  match client.pool with
  | some _ => some process
  | none =>
      match built : client.inputs.build host with
      | some (.ok pool) => some {
          clients := process.clients.set index { client with pool := some process.pools.length }
          pools := process.pools ++ [⟨client.inputs, host, pool, built⟩] }
      | _ => none

/-- One call of the program; `none` where it panics or there is no such client. -/
def step (process : Process Anchor Config) :
    Action Anchor Config → Option (Process Anchor Config)
  | .new addr => some { process with clients := process.clients ++ [.new addr] }
  | .newTls addr serverName =>
      some { process with clients := process.clients ++ [.newTls addr serverName] }
  | .clone index => do
      let client ← process.clients[index]?
      return { process with clients := process.clients ++ [client] }
  | .configure index builder => do
      let client ← process.clients[index]?
      let next ← builder.apply client
      return { process with clients := process.clients.set index next }
  | .pool index host => do
      let client ← process.clients[index]?
      process.takePool index client host

end Process

/-! ## Every pool is that of its client -/

namespace TcpClient

variable {Anchor Config : Type}

/-- The client sends what its fields say, and holds a pool that is built from them. -/
structure Consistent (pools : List (BuiltPool Anchor Config)) (client : TcpClient Config) :
    Prop where
  settings : client.querySettings = client.currentSettings
  endpoints : client.config.endpoints ≠ []
  pool : ∀ index, client.pool = some index →
    ∃ built, pools[index]? = some built ∧ built.inputs = client.inputs

variable {pools : List (BuiltPool Anchor Config)} {client next : TcpClient Config}

/-- A client without a pool has none that is out of date. -/
theorem Consistent.of_noPool (settings : client.querySettings = client.currentSettings)
    (endpoints : client.config.endpoints ≠ []) (none : client.pool = none) :
    client.Consistent pools := by
  refine ⟨settings, endpoints, ?_⟩
  intro index held
  rw [none] at held
  cases held

/-- A builder that leaves the inputs of the pool keeps it. -/
theorem Consistent.of_sameInputs (consistent : client.Consistent pools)
    (settings : next.querySettings = next.currentSettings) (pool : next.pool = client.pool)
    (inputs : next.inputs = client.inputs) : next.Consistent pools := by
  have endpoints : next.config.endpoints = client.config.endpoints :=
    congrArg PoolInputs.endpoints inputs
  refine ⟨settings, endpoints ▸ consistent.endpoints, ?_⟩
  intro index held
  rw [inputs]
  exact consistent.pool index (pool ▸ held)

theorem Consistent.append (consistent : client.Consistent pools)
    (more : List (BuiltPool Anchor Config)) : client.Consistent (pools ++ more) := by
  refine ⟨consistent.settings, consistent.endpoints, ?_⟩
  intro index held
  obtain ⟨built, found, same⟩ := consistent.pool index held
  have inside := (List.getElem?_eq_some_iff.mp found).1
  exact ⟨built, by rw [List.getElem?_append_left inside, found], same⟩

theorem Consistent.builder {builder : Builder Config} (consistent : client.Consistent pools)
    (applied : builder.apply client = some next) : next.Consistent pools := by
  cases builder with
  | addrs given =>
      have replaced : client.withAddrs given = some next := applied
      unfold withAddrs at replaced
      split at replaced
      · cases replaced
      · rename_i inhabited
        cases replaced
        exact .of_noPool consistent.settings (fun none => inhabited (List.isEmpty_iff.mpr none)) rfl
  | setting | jsonAsString | roles =>
      cases applied
      exact consistent.of_sameInputs rfl rfl rfl
  | retry =>
      cases applied
      exact consistent.of_sameInputs consistent.settings rfl rfl
  | database =>
      cases applied
      exact .of_noPool rfl consistent.endpoints rfl
  | _ =>
      cases applied
      exact .of_noPool consistent.settings consistent.endpoints rfl

end TcpClient

namespace Process

variable {Anchor Config : Type}

/-- Every client is consistent, and the pools it names are of hosts that the calls met. -/
structure Consistent (hosts : TlsHost Anchor Config → Prop) (process : Process Anchor Config) :
    Prop where
  clients : ∀ client ∈ process.clients, client.Consistent process.pools
  pools : ∀ built ∈ process.pools, hosts built.host

variable {hosts : TlsHost Anchor Config → Prop} {process next : Process Anchor Config}

theorem Consistent.client {index : Nat} {client : TcpClient Config}
    (consistent : process.Consistent hosts) (found : process.clients[index]? = some client) :
    client.Consistent process.pools :=
  consistent.clients client (List.mem_of_getElem? found)

/-- One more client. -/
theorem Consistent.add (consistent : process.Consistent hosts) {client : TcpClient Config}
    (added : client.Consistent process.pools) :
    Consistent hosts { process with clients := process.clients ++ [client] } := by
  refine ⟨?_, consistent.pools⟩
  intro other member
  rcases List.mem_append.mp member with old | new
  · exact consistent.clients other old
  · obtain rfl := List.mem_singleton.mp new
    exact added

/-- One client changed. -/
theorem Consistent.set (consistent : process.Consistent hosts) (index : Nat)
    {client : TcpClient Config} (changed : client.Consistent process.pools) :
    Consistent hosts { process with clients := process.clients.set index client } := by
  refine ⟨?_, consistent.pools⟩
  intro other member
  rcases List.mem_or_eq_of_mem_set member with old | rfl
  · exact consistent.clients other old
  · exact changed

/-- One more pool, for a client that has none. -/
theorem takePool_consistent {index : Nat} {client : TcpClient Config} {host : TlsHost Anchor Config}
    (consistent : process.Consistent hosts) (found : process.clients[index]? = some client)
    (met : hosts host) (taken : process.takePool index client host = some next) :
    next.Consistent hosts := by
  unfold takePool at taken
  split at taken
  · cases taken
    exact consistent
  · split at taken
    · rename_i pool built
      cases taken
      have grown : Consistent hosts
          { process with pools := process.pools ++ [⟨client.inputs, host, pool, built⟩] } := by
        refine ⟨fun other member => (consistent.clients other member).append _, ?_⟩
        intro other member
        rcases List.mem_append.mp member with old | new
        · exact consistent.pools other old
        · obtain rfl := List.mem_singleton.mp new
          exact met
      apply grown.set index
      have before := consistent.client found
      refine ⟨before.settings, before.endpoints, ?_⟩
      intro position held
      cases held
      exact ⟨_, List.getElem?_concat_length, rfl⟩
    · cases taken

theorem step_consistent {action : Action Anchor Config}
    (met : ∀ index host, action = .pool index host → hosts host)
    (consistent : process.Consistent hosts) (stepped : process.step action = some next) :
    next.Consistent hosts := by
  cases action with
  | new addr | newTls addr serverName =>
      cases stepped
      exact consistent.add (.of_noPool rfl (List.cons_ne_nil _ _) rfl)
  | clone index =>
      obtain ⟨client, found, cloned⟩ := Option.bind_eq_some_iff.mp stepped
      cases cloned
      exact consistent.add (consistent.client found)
  | configure index builder =>
      obtain ⟨client, found, configured⟩ := Option.bind_eq_some_iff.mp stepped
      obtain ⟨changed, applied, replaced⟩ := Option.bind_eq_some_iff.mp configured
      cases replaced
      exact consistent.set index ((consistent.client found).builder applied)
  | pool index host =>
      obtain ⟨client, found, taken⟩ := Option.bind_eq_some_iff.mp stepped
      exact takePool_consistent consistent found (met index host rfl) taken

theorem run_consistent {actions : List (Action Anchor Config)}
    (runs : Machine.run step empty actions = some process) :
    process.Consistent fun host => ∃ index, .pool index host ∈ actions := by
  apply Machine.run_keeps_of_mem ?_ ?_ runs
  · intro state action next member consistent stepped
    apply step_consistent ?_ consistent stepped
    rintro index host rfl
    exact ⟨index, member⟩
  · refine ⟨?_, ?_⟩
    · intro client member
      cases member
    · intro built member
      cases member

end Process

/-! ## What a pool connects with -/

section Pools

variable {Anchor Config : Type}

namespace TcpClient

/-- The transport that a client stands for on a host: TLS is never less than it asks
for. -/
def transport (client : TcpClient Config) (host : TlsHost Anchor Config) :
    Except Error (Transport Config) :=
  match client.config.kind with
  | .plain => .ok .plain
  | .tls serverName =>
      match host.buildClientConfig (client.tls.getD (.trust .default)) with
      | .ok config => .ok (.tls serverName config)
      | .error _ => .error trustUnresolved

/-- The pool opens the connections that the client stands for. -/
structure Serves (client : TcpClient Config) (host : TlsHost Anchor Config)
    (pool : NativePool Config) : Prop where
  endpoints : pool.endpoints = client.config.endpoints
  transport : pool.kind.transport = client.transport host
  handshake : pool.config = client.config.handshake
  maxSize : pool.maxSize = client.config.pool.maxSize
  waitTimeout : pool.waitTimeout = client.config.pool.acquireTimeout
  createTimeout : pool.createTimeout = client.config.pool.createTimeout
  recycleTimeout : pool.recycleTimeout = client.config.pool.recycleTimeout
  maxLifetime : pool.maxLifetime = client.config.pool.maxLifetime
  readTimeout : pool.readTimeout = client.config.pool.readTimeout

end TcpClient

variable {host : TlsHost Anchor Config} {client : TcpClient Config}

/-- A kind that is built opens the client's transport. -/
theorem connectKind_transport {kind : ConnectKind Config}
    (built : connectKind host client.config.kind (resolveTls host client.tls) = .ok kind) :
    kind.transport = client.transport host := by
  unfold TcpClient.transport
  unfold resolveTls at built
  cases requested : client.config.kind with
  | plain =>
      rw [requested] at built
      cases built
      rfl
  | tls serverName =>
      rw [requested] at built
      cases source : client.tls with
      | none =>
          rw [source] at built
          obtain ⟨config, resolved, made⟩ := Reader.ok_bind_iff.mp built
          cases made
          simp [resolved, ConnectKind.transport]
      | some source' =>
          rw [source] at built
          dsimp only at built
          rw [Option.getD_some]
          cases resolved : host.buildClientConfig source' with
          | ok config =>
              rw [resolved] at built
              cases built
              rfl
          | error error =>
              rw [resolved] at built
              cases built
              rfl

theorem serves_of_build {pool : NativePool Config}
    (built : client.inputs.build host = some (.ok pool)) : client.Serves host pool := by
  unfold PoolInputs.build buildPool at built
  split at built
  · cases built
  · obtain ⟨kind, opened, made⟩ := Reader.ok_bind_iff.mp (Option.some.inj built)
    cases made
    exact ⟨rfl, connectKind_transport opened, rfl, rfl, rfl, rfl, rfl, rfl, rfl⟩

theorem Process.Consistent.serves {hosts : TlsHost Anchor Config → Prop}
    {process : Process Anchor Config} (consistent : process.Consistent hosts)
    (member : client ∈ process.clients) {index : Nat} (held : client.pool = some index) :
    ∃ built, process.pools[index]? = some built ∧ hosts built.host ∧
      client.Serves built.host built.pool := by
  obtain ⟨built, found, inputs⟩ := (consistent.clients client member).pool index held
  exact ⟨built, found, consistent.pools built (List.mem_of_getElem? found),
    serves_of_build (inputs ▸ built.built)⟩

/-- However its clients were configured, cloned and used, a client sends the settings that
its fields say, and the pool it holds opens the connections that it stands for, with the
trust as it was on a host at a call that took a pool. -/
theorem serves_of_run {actions : List (Process.Action Anchor Config)}
    {process : Process Anchor Config}
    (runs : Machine.run Process.step .empty actions = some process)
    (member : client ∈ process.clients) :
    client.querySettings = client.currentSettings ∧
      ∀ index, client.pool = some index → ∃ caller built, process.pools[index]? = some built ∧
        .pool caller built.host ∈ actions ∧ client.Serves built.host built.pool := by
  have consistent := Process.run_consistent runs
  refine ⟨(consistent.clients client member).settings, ?_⟩
  intro index held
  obtain ⟨built, found, ⟨caller, met⟩, serves⟩ := consistent.serves member held
  exact ⟨caller, built, found, met, serves⟩

/-- A host with one root of its own and one in the bundle. -/
def twoRoots : TlsHost Nat (List Nat) where
  nativeCerts := [1]
  tlsServerRoots := [2]
  pemFile := fun _ => .error "No such file or directory (os error 2)"
  clientConfig := .ok

/-- A client over TLS and a copy of it with a trust that cannot be resolved. -/
def twoClients : List (Process.Action Nat (List Nat)) :=
  [.newTls "db:9440" "db", .pool 0 twoRoots, .clone 0,
    .configure 1 (.tlsTrust { TlsTrust.default with exclusive := true }), .pool 1 twoRoots]

theorem serves_of_run_twoClients :
    ∃ process client, Machine.run Process.step .empty twoClients = some process ∧
      client ∈ process.clients ∧ client.pool = some 1 ∧
      client.querySettings = client.currentSettings ∧
      ∀ index, client.pool = some index → ∃ caller built, process.pools[index]? = some built ∧
        .pool caller built.host ∈ twoClients ∧ client.Serves built.host built.pool := by
  have runs : ∃ process client, Machine.run Process.step .empty twoClients = some process ∧
      process.clients[1]? = some client ∧ client.pool = some 1 := ⟨_, _, rfl, rfl, rfl⟩
  obtain ⟨process, client, runs, found, held⟩ := runs
  have member := List.mem_of_getElem? found
  exact ⟨process, client, runs, member, held, serves_of_run runs member⟩

/-! ## Panics -/

theorem connectKind_fails_iff {kind : ConnectKindConfig} {tls : Option (TlsConfigSource Config)} :
    (∃ error, connectKind host kind (resolveTls host tls) = .error error) ↔
      (∃ serverName, kind = .tls serverName) ∧ tls = none ∧
        ∃ error, host.buildClientConfig (.trust .default) = .error error := by
  unfold resolveTls
  cases kind with
  | plain => simp [connectKind]
  | tls serverName =>
      cases tls with
      | none =>
          unfold connectKind
          cases host.buildClientConfig (.trust .default) with
          | ok config => simp [bind, Except.bind, pure, Except.pure]
          | error error => simp [bind, Except.bind]
      | some source =>
          dsimp only
          cases host.buildClientConfig source <;> simp [connectKind]

theorem build_panics_iff (endpoints : client.config.endpoints ≠ []) :
    (∀ pool, client.inputs.build host ≠ some (.ok pool)) ↔
      ∃ error, connectKind host client.config.kind (resolveTls host client.tls) = .error error := by
  have inhabited : ¬ client.inputs.endpoints.isEmpty = true :=
    fun none => endpoints (List.isEmpty_iff.mp none)
  unfold PoolInputs.build buildPool
  rw [if_neg inhabited]
  show (∀ pool, some (connectKind host client.config.kind (resolveTls host client.tls) >>= _) ≠
    some (.ok pool)) ↔ _
  cases connectKind host client.config.kind (resolveTls host client.tls) with
  | ok kind =>
      constructor
      · intro never
        exact absurd rfl (never _)
      · rintro ⟨error, failed⟩
        cases failed
  | error error =>
      constructor
      · intro _
        exact ⟨error, rfl⟩
      · rintro _ pool built
        cases built

/-- Taking a pool panics only where the default trust is needed and cannot be resolved. -/
theorem pool_panics_iff {actions : List (Process.Action Anchor Config)}
    {process : Process Anchor Config}
    (runs : Machine.run Process.step .empty actions = some process) {index : Nat}
    (found : process.clients[index]? = some client) (host : TlsHost Anchor Config) :
    process.step (.pool index host) = none ↔
      client.pool = none ∧ (∃ serverName, client.config.kind = .tls serverName) ∧
        client.tls = none ∧ ∃ error, host.buildClientConfig (.trust .default) = .error error := by
  have endpoints := ((Process.run_consistent runs).client found).endpoints
  have stepped : process.step (.pool index host) = process.takePool index client host := by
    rw [Process.step, found]
    rfl
  rw [stepped, ← connectKind_fails_iff, ← build_panics_iff endpoints, Process.takePool]
  cases held : client.pool with
  | some position => simp
  | none =>
      dsimp only
      split
      · rename_i pool built
        simp [built]
      · rename_i never
        simpa using never

/-- A host without any roots. -/
def noRoots : TlsHost Nat (List Nat) :=
  { twoRoots with nativeCerts := [], tlsServerRoots := [] }

theorem pool_panics_iff_noRoots :
    ∃ process, Machine.run Process.step .empty [.newTls "db:9440" "db"] = some process ∧
      process.step (.pool 0 noRoots) = none := by
  have runs : ∃ process, Machine.run Process.step .empty
      [(.newTls "db:9440" "db" : Process.Action Nat (List Nat))] = some process ∧
      process.clients[0]? = some (.newTls "db:9440" "db") := ⟨_, rfl, rfl⟩
  obtain ⟨process, runs, found⟩ := runs
  exact ⟨process, runs, (pool_panics_iff runs found noRoots).mpr ⟨rfl, ⟨_, rfl⟩, rfl, _, rfl⟩⟩

/-! ## What servers receive -/

/-- A Query packet on a connection of a pool. -/
def NativePool.sendQuery (pool : NativePool Config) (serverRevision : UInt64)
    (queryId query : ByteString) (settings params : List (ByteString × ByteString)) :
    ByteWriter Unit :=
  Tcp.sendQuery serverRevision queryId query settings params
    (clientInfoFor serverRevision pool.config.quotaKey queryId)

namespace TcpClient

end TcpClient

/-- A client that has its pool and then gets a setting. -/
def configured : List (Process.Action Nat (List Nat)) :=
  [.new "db:9000", .pool 0 noRoots, .configure 0 (.setting nameBytes oneText)]

end Pools

end DfeClickhouse.Tcp
