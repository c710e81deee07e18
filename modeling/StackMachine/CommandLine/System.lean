import StackMachine.CommandLine.FileTree

/-!
# The entries of a Unix system

The file tree in which a command runs unless another one is given. Of the system only those entries are described that
are always there. No result depends on which ones they are, except that none of them lies in the working directory.
-/

namespace StackMachine.CommandLine.FileTree

/-- A Unix system. Of its devices that take no data one is always full, the other needs a terminal. The views of the
running system take no new files. -/
def system : FileTree where
  directories :=
    [["boot"], ["dev"], ["dev", "pts"], ["dev", "shm"], ["etc"], ["home"], ["media"], ["mnt"], ["opt"], ["proc"],
     ["proc", "self"], ["proc", "sys"], ["root"], ["run"], ["run", "lock"], ["srv"], ["sys"], ["tmp"], ["usr"],
     ["usr", "bin"], ["usr", "include"], ["usr", "lib"], ["usr", "lib64"], ["usr", "local"],
     ["usr", "local", "bin"], ["usr", "local", "lib"], ["usr", "local", "share"], ["usr", "sbin"],
     ["usr", "share"], ["usr", "src"], ["var"], ["var", "cache"], ["var", "lib"], ["var", "local"],
     ["var", "log"], ["var", "mail"], ["var", "opt"], ["var", "spool"], ["var", "tmp"]]
  files :=
    [["dev", "null"], ["dev", "random"], ["dev", "urandom"], ["dev", "zero"], ["etc", "fstab"], ["etc", "group"],
     ["etc", "hostname"], ["etc", "hosts"], ["etc", "os-release"], ["etc", "passwd"], ["etc", "profile"],
     ["etc", "resolv.conf"], ["etc", "shadow"], ["proc", "cpuinfo"], ["proc", "meminfo"], ["proc", "mounts"],
     ["proc", "stat"], ["proc", "uptime"], ["proc", "version"], ["usr", "bin", "bash"], ["usr", "bin", "cat"],
     ["usr", "bin", "cp"], ["usr", "bin", "echo"], ["usr", "bin", "env"], ["usr", "bin", "false"],
     ["usr", "bin", "ls"], ["usr", "bin", "mv"], ["usr", "bin", "rm"], ["usr", "bin", "sh"],
     ["usr", "bin", "test"], ["usr", "bin", "true"]]
  fullDevices := [["dev", "full"], ["dev", "tty"]]
  links :=
    [(["bin"], ["usr", "bin"]), (["lib"], ["usr", "lib"]), (["lib64"], ["usr", "lib64"]),
     (["sbin"], ["usr", "sbin"]), (["var", "lock"], ["run", "lock"]), (["var", "run"], ["run"])]
  views := [["proc"], ["sys"]]
  closed := [(["proc"], .notFound), (["sys"], .notPermitted), (["dev", "pts"], .notPermitted)]

end StackMachine.CommandLine.FileTree
