/-
# Built-in rules

Rules for the resource types that come with the tool, and for those of a few well-known cookbooks.
-/

import Rolewright.Mapping.Registry

namespace Rolewright.Mapping

/-- What the actions on a package ask for. -/
def packageStates : List (String × String) :=
  [("install", "present"), ("upgrade", "latest"), ("remove", "absent"), ("purge", "absent"),
    ("nothing", "present")]

/-- What the actions on a service ask for. -/
def serviceStates : List (String × String) :=
  [("start", "started"), ("stop", "stopped"), ("restart", "restarted"), ("reload", "reloaded")]

/-- What the actions on a unit of the service manager ask for. -/
def unitStates : List (String × String) :=
  [("start", "started"), ("stop", "stopped"), ("enable", "enabled"), ("disable", "disabled")]

/-- What the actions on a mount point ask for. -/
def mountStates : List (String × String) :=
  [("mount", "mounted"), ("umount", "unmounted"), ("unmount", "unmounted"),
    ("enable", "present"), ("disable", "absent")]

/-- What creating and deleting ask for. -/
def presence : List (String × String) :=
  [("create", "present"), ("delete", "absent"), ("remove", "absent")]

/-- What switching on and off asks for. -/
def switches : List (String × String) :=
  [("true", "present"), ("false", "absent")]

/-- A rule for a kind of package. -/
def package (source target : String) : Rule :=
  Rule.plain source target |>.rename "package_name" "name" |>.rename "action" "state"
    |>.transform "action" packageStates

/-- Packages. -/
def packageRules : List Rule :=
  [package "package" "ansible.builtin.package",
    package "apt_package" "ansible.builtin.apt",
    package "yum_package" "ansible.builtin.yum",
    package "dnf_package" "ansible.builtin.dnf",
    package "gem_package" "community.general.gem",
    package "chef_gem" "community.general.gem",
    package "snap_package" "community.general.snap",
    package "homebrew_package" "community.general.homebrew"]

/-- Services. -/
def serviceRules : List Rule :=
  [Rule.plain "service" "ansible.builtin.service" |>.rename "service_name" "name"
      |>.rename "action" "state" |>.transform "action" serviceStates,
    Rule.plain "systemd_unit" "ansible.builtin.systemd" |>.rename "unit_name" "name"
      |>.rename "action" "state"
      |>.transform "action" unitStates]

/-- Files, directories and links. -/
def fileRules : List Rule :=
  [Rule.plain "template" "ansible.builtin.template" |>.rename "source" "src"
      |>.rename "path" "dest",
    Rule.plain "directory" "ansible.builtin.file" |>.rename "recursive" "recurse"
      |>.rename "action" "state"
      |>.transform "action" [("create", "directory"), ("delete", "absent")],
    Rule.plain "file" "ansible.builtin.copy" |>.rename "path" "dest" |>.rename "action" "state"
      |>.transform "action" presence,
    Rule.plain "cookbook_file" "ansible.builtin.copy" |>.rename "source" "src"
      |>.rename "path" "dest",
    Rule.plain "remote_file" "ansible.builtin.get_url" |>.rename "source" "url"
      |>.rename "path" "dest",
    Rule.plain "link" "ansible.builtin.file" |>.rename "target_file" "path" |>.rename "to" "src"]

/-- Commands and messages. -/
def commandRules : List Rule :=
  [Rule.plain "execute" "ansible.builtin.command" |>.rename "command" "cmd"
      |>.rename "cwd" "chdir",
    Rule.plain "bash" "ansible.builtin.shell" |>.rename "code" "cmd" |>.rename "cwd" "chdir",
    Rule.plain "script" "ansible.builtin.shell" |>.rename "code" "cmd" |>.rename "cwd" "chdir",
    Rule.plain "log" "ansible.builtin.debug" |>.rename "message" "msg"]

/-- Users and groups. -/
def accountRules : List Rule :=
  [Rule.plain "user" "ansible.builtin.user" |>.rename "username" "name"
      |>.rename "manage_home" "create_home" |>.rename "gid" "group" |>.rename "action" "state"
      |>.transform "action" presence,
    Rule.plain "group" "ansible.builtin.group" |>.rename "group_name" "name"
      |>.rename "action" "state" |>.transform "action" presence]

/-- The parts of a system that have modules of their own. -/
def systemRules : List Rule :=
  [Rule.plain "cron" "ansible.builtin.cron" |>.rename "command" "job"
      |>.rename "action" "state" |>.transform "action" presence,
    Rule.plain "mount" "ansible.posix.mount" |>.rename "mount_point" "path"
      |>.rename "device" "src" |>.rename "options" "opts" |>.rename "action" "state"
      |>.transform "action" mountStates,
    Rule.plain "git" "ansible.builtin.git" |>.rename "repository" "repo"
      |>.rename "destination" "dest" |>.rename "revision" "version",
    Rule.plain "apt_repository" "ansible.builtin.apt_repository" |>.rename "uri" "repo",
    Rule.plain "apt_update" "ansible.builtin.apt",
    Rule.plain "yum_repository" "ansible.builtin.yum_repository" |>.rename "repositoryid" "name",
    Rule.plain "sysctl" "ansible.posix.sysctl" |>.rename "key" "name",
    Rule.plain "hostname" "ansible.builtin.hostname" |>.rename "hostname" "name",
    Rule.plain "timezone" "community.general.timezone" |>.rename "timezone" "name"]

/-- Resources that well-known cookbooks define. -/
def communityRules : List Rule :=
  [Rule.plain "mysql_database" "community.mysql.mysql_db" |>.rename "database_name" "name"
      |>.rename "connection" "login_host" |>.rename "user" "login_user"
      |>.rename "password" "login_password",
    Rule.plain "postgresql_database" "community.postgresql.postgresql_db"
      |>.rename "database_name" "name" |>.rename "connection" "login_host"
      |>.rename "user" "login_user" |>.rename "password" "login_password",
    Rule.plain "apache2_site" "community.general.apache2_module" |>.rename "site_name" "name"
      |>.rename "enable" "state" |>.transform "enable" switches,
    Rule.plain "nginx_site" "community.general.nginx_site" |>.rename "site_name" "name"
      |>.rename "enable" "state" |>.transform "enable" switches,
    Rule.plain "cron_job" "ansible.builtin.cron" |>.rename "command" "job"]

/-- All built-in rules, in the order of registration. -/
def defaultRules : List Rule :=
  packageRules ++ serviceRules ++ fileRules ++ commandRules ++ accountRules ++ systemRules ++
    communityRules

/-- The registry of the built-in rules. -/
def Registry.builtin : Registry :=
  .ofRules defaultRules

end Rolewright.Mapping
