import Rpsiod.Config.Validate

/-!
# Reading the server file (`apply_server_value`, `parse_server_file`)

The settings of the process itself stand in a file of their own.  It is read like the sites file,
line after line with the keys in force on a stack, but has no lists and only one record.

* `ParsedServer`: what `rpsiod_config` has of it, with the values of `rpsiod_config_defaults`.
* `serverRules`: the branches of `apply_server_value`; the first that holds is the one that counts.
* `parseServerFile`: the loop of `parse_server_file`.
* `configLoadFiles`: `rpsiod_config_load`, on both files.
-/

namespace Rpsiod

/-- The settings of the process, with the values of `rpsiod_config_defaults`. -/
structure ParsedServer where
  name : Bytes := ascii "rpsiod"
  environment : Bytes := ascii "production"
  linuxUser : Bytes := ascii "rpsiod"
  linuxGroup : Bytes := ascii "rpsiod"
  pidFile : Bytes := ascii "/run/rpsiod/rpsiod.pid"
  reusePort : Bool := true
  tcpFastOpen : Bool := true
  backlog : ℤ := 4096
  openFiles : ℕ := 1048576
  maxProcesses : ℕ := 4096
  workersAuto : Bool := true
  workers : ℤ := 1
  maxConnections : ℕ := 50000
  keepAliveEnabled : Bool := true
  keepAliveTimeoutSec : ℤ := 30
  keepAliveMaxRequests : ℤ := 1000
  requestHeaderBuffer : ℕ := 16 * 1024
  responseBuffer : ℕ := 64 * 1024
  sendfileEnabled : Bool := true
  readAheadEnabled : Bool := true
  openFileCacheEnabled : Bool := true
  openFileCacheMax : ℕ := 64
  hideVersion : Bool := true
  dropPrivileges : Bool := true
  preventCoreDumps : Bool := true
  chrootEnabled : Bool := false
  chrootPath : Bytes := []
  loggingLevel : Bytes := ascii "info"
  loggingFormat : Bytes := ascii "text"
  accessLog : ParsedLog := ⟨true, ascii "/var/log/rpsiod/access.log"⟩
  errorLog : ParsedLog := ⟨true, ascii "/var/log/rpsiod/error.log"⟩
  benchmarksEnabled : Bool := true
  benchmarksIp : Bytes := ascii "127.0.0.1"
  benchmarksPort : UInt16 := 9191
  benchmarksStoragePath : Bytes := ascii "/var/cache/rpsiod/benchmarks"
  sitesFile : Bytes := ascii "/etc/rpsiod/sites.yml"
  deriving DecidableEq

/-! ### The rules for a key -/

/-- A branch of `apply_server_value`: its keys, where it is taken, and what it does with a value. -/
structure ServerRule where
  keys : List String
  holds : YamlStack → ℕ → Bool
  set : Bytes → ParsedServer → Except Bytes ParsedServer

/-- The branch is taken for this key, with these in force. -/
def ServerRule.takes (rule : ServerRule) (stack : YamlStack) (level : ℕ) (key : Bytes) : Bool :=
  rule.keys.any (fun k => key = ascii k) && rule.holds stack level

/-- A branch without a condition but its key. -/
def anywhere (_ : YamlStack) (_ : ℕ) : Bool := true

/-- `path_has(stack, level, section)`. -/
def within (name : String) (stack : YamlStack) (level : ℕ) : Bool :=
  pathHas stack level (ascii name)

/-- `rpsiod_safe_copy` into a field of this size. -/
def serverText (key : String) (holds : YamlStack → ℕ → Bool) (width : ℕ)
    (put : ParsedServer → Bytes → ParsedServer) : ServerRule where
  keys := [key]
  holds := holds
  set := fun value cfg => .ok (put cfg (safeCopy width value))

/-- `apply_bool_value`. -/
def serverBool (key : String) (holds : YamlStack → ℕ → Bool) (field : String)
    (put : ParsedServer → Bool → ParsedServer) : ServerRule where
  keys := [key]
  holds := holds
  set := fun value cfg =>
    match parseBoolStrict value with
    | some b => .ok (put cfg b)
    | none => .error (ascii field ++ ascii " must be a boolean")

/-- `apply_port_value`. -/
def serverPort (key : String) (holds : YamlStack → ℕ → Bool) (field : String)
    (put : ParsedServer → UInt16 → ParsedServer) : ServerRule where
  keys := [key]
  holds := holds
  set := fun value cfg =>
    match parsePortStrict value with
    | some port => .ok (put cfg port)
    | none => .error (ascii field ++ ascii " must be a TCP port between 1 and 65535")

/-- A number, a size or a duration: without one the setting stays. -/
def serverNumber (keys : List String) (holds : YamlStack → ℕ → Bool)
    (put : ParsedServer → Bytes → ParsedServer) : ServerRule where
  keys := keys
  holds := holds
  set := fun value cfg => .ok (put cfg value)

/-- `RPSIOD_OPEN_FILE_CACHE_MAX`. -/
def openFileCacheLimit : ℕ := 256

/-- The branch for `workers`. -/
def putWorkers (cfg : ParsedServer) (value : Bytes) : ParsedServer :=
  if streqCi value (ascii "auto") then { cfg with workersAuto := true }
  else { cfg with workersAuto := false, workers := toInt (parseLong value cfg.workers) }

/-- The branches of `apply_server_value`. -/
def serverRules : List ServerRule :=
  [serverText "name" (fun stack level => parentIs stack level (ascii "server")) 64 fun c v =>
      { c with name := v },
    serverText "environment" anywhere 64 fun c v => { c with environment := v },
    serverText "user" (within "linux") 64 fun c v => { c with linuxUser := v },
    serverText "group" (within "linux") 64 fun c v => { c with linuxGroup := v },
    serverText "pidFile" anywhere 256 fun c v => { c with pidFile := v },
    serverBool "reusePort" anywhere "linux.sockets.reusePort" fun c b => { c with reusePort := b },
    serverBool "tcpFastOpen" anywhere "linux.sockets.tcpFastOpen" fun c b =>
      { c with tcpFastOpen := b },
    serverNumber ["backlog"] anywhere fun c v =>
      { c with backlog := toInt (parseLong v c.backlog) },
    serverNumber ["openFiles"] anywhere fun c v => { c with openFiles := parseSize v c.openFiles },
    serverNumber ["maxProcesses"] anywhere fun c v =>
      { c with maxProcesses := parseSize v c.maxProcesses },
    serverNumber ["workers"] anywhere putWorkers,
    serverNumber ["maxConnections"] anywhere fun c v =>
      { c with maxConnections := parseSize v c.maxConnections },
    serverBool "enabled" (within "keepAlive") "performance.keepAlive.enabled" fun c b =>
      { c with keepAliveEnabled := b },
    serverNumber ["timeout"] (within "keepAlive") fun c v =>
      { c with keepAliveTimeoutSec := parseDurationSec v c.keepAliveTimeoutSec },
    serverNumber ["maxRequests"] anywhere fun c v =>
      { c with keepAliveMaxRequests := toInt (parseLong v c.keepAliveMaxRequests) },
    serverNumber ["requestHeader"] anywhere fun c v =>
      { c with requestHeaderBuffer := parseSize v c.requestHeaderBuffer },
    serverNumber ["response"] (within "buffers") fun c v =>
      { c with responseBuffer := parseSize v c.responseBuffer },
    serverBool "sendfile" anywhere "performance.staticFiles.sendfile" fun c b =>
      { c with sendfileEnabled := b },
    serverBool "readAhead" anywhere "performance.staticFiles.readAhead" fun c b =>
      { c with readAheadEnabled := b },
    serverBool "enabled" (within "openFileCache") "performance.openFileCache.enabled" fun c b =>
      { c with openFileCacheEnabled := b },
    serverNumber ["maxFiles", "max"] (within "openFileCache") fun c v =>
      { c with openFileCacheMax := min openFileCacheLimit (parseSize v c.openFileCacheMax) },
    serverBool "hideVersion" anywhere "security.hideVersion" fun c b => { c with hideVersion := b },
    serverBool "dropPrivileges" anywhere "security.dropPrivileges" fun c b =>
      { c with dropPrivileges := b },
    serverBool "preventCoreDumps" anywhere "security.preventCoreDumps" fun c b =>
      { c with preventCoreDumps := b },
    serverBool "enabled" (within "chroot") "security.chroot.enabled" fun c b =>
      { c with chrootEnabled := b },
    serverText "path" (within "chroot") 512 fun c v => { c with chrootPath := v },
    serverText "level" (within "logging") 32 fun c v => { c with loggingLevel := v },
    serverText "format" (within "logging") 32 fun c v => { c with loggingFormat := v },
    serverBool "enabled" (within "access") "logging.access.enabled" fun c b =>
      { c with accessLog := { c.accessLog with enabled := b } },
    serverText "path" (within "access") 512 fun c v =>
      { c with accessLog := { c.accessLog with path := v } },
    serverBool "enabled" (within "error") "logging.error.enabled" fun c b =>
      { c with errorLog := { c.errorLog with enabled := b } },
    serverText "path" (within "error") 512 fun c v =>
      { c with errorLog := { c.errorLog with path := v } },
    serverBool "enabled" (within "benchmarks") "benchmarks.enabled" fun c b =>
      { c with benchmarksEnabled := b },
    serverText "ip" (within "benchmarks") 64 fun c v => { c with benchmarksIp := v },
    serverPort "port" (within "benchmarks") "benchmarks.listen.port" fun c p =>
      { c with benchmarksPort := p },
    serverText "path" (within "storage") 512 fun c v => { c with benchmarksStoragePath := v },
    serverText "sitesFile" anywhere 512 fun c v => { c with sitesFile := v }]

/-- `apply_server_value`. -/
def applyServerValue (cfg : ParsedServer) (stack : YamlStack) (level : ℕ) (key value : Bytes) :
    Except Bytes ParsedServer :=
  if value = [] then .ok cfg
  else
    match serverRules.find? fun rule => rule.takes stack level key with
    | some rule => rule.set value cfg
    | none => .ok cfg

/-! ### The loop -/

/-- The loop body of `parse_server_file` on a line and its number; its first steps are those of
`parse_sites_file`. -/
def parseServerLine (path : Bytes) (state : YamlStack × ParsedServer) (raw : Bytes × ℕ) :
    Except Bytes (YamlStack × ParsedServer) :=
  let line := sitesLine raw.1
  let fail := parseErrorAt path raw.2
  if line.text = [] then .ok state
  else
    match line.keyValue with
    | none => .error (fail (ascii "expected key/value"))
    | some (key, value) =>
        ((applyServerValue state.2 state.1 line.level key value).mapError fail).map fun cfg =>
          (stackSet state.1 line.level key, cfg)

/-- `parse_server_file` on what `fopen` gives: the file, or the text of `errno`. -/
def parseServerFile (path : Bytes) (file : Except Bytes Bytes) : Except Bytes ParsedServer :=
  match file with
  | .error text => .error (ascii "failed to open " ++ path ++ ascii ": " ++ text)
  | .ok file =>
      (((fgetsPieces file).zipIdx 1).foldlM (parseServerLine path) ([], {})).map Prod.snd

/-! ### Loading -/

/-- The settings that `rpsiod_config_validate` checks. -/
def ParsedServer.settings (cfg : ParsedServer) : ServerSettings where
  loggingLevel := cfg.loggingLevel
  loggingFormat := cfg.loggingFormat
  benchmarksPort := cfg.benchmarksPort
  benchmarksIp := cfg.benchmarksIp
  sitesFile := cfg.sitesFile
  pidFile := cfg.pidFile
  accessLog := cfg.accessLog
  errorLog := cfg.errorLog

/-- `rpsiod_config_load`: the files are found by their paths, and the sites file is the one that the
server file names if no other is asked for. -/
def configLoadFiles (dirs : Directories) (files : Bytes → Except Bytes Bytes)
    (serverPath sitesPath : Option Bytes) : Except Bytes (ParsedServer × LoadedConfig) := do
  let serverPath := serverPath.getD (ascii "/etc/rpsiod/server.yml")
  let cfg ← parseServerFile serverPath (files serverPath)
  let sites := sitesPath.getD cfg.sitesFile
  let loaded ← configLoad dirs (.ok cfg.settings) sites (files sites)
  return (cfg, loaded)

end Rpsiod
