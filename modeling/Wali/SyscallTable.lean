import Wali.Syscalls

/-!
# The table of syscalls

`_syscall_list` has a row for every syscall of Linux: a call of `impl`, with typed arguments, or of
`unimpl`, and one number for each architecture that has the call. When the module is loaded the
rows are entered in a dictionary by name, and its length is compared with that of the list.
-/

namespace Wali

open Py (Str Dict)

/-- The columns of numbers. -/
inductive Arch where
  | x86_64
  | arm64
  | rv64
  deriving DecidableEq, Repr

def ArchNrs.get (nrs : ArchNrs) : Arch → ℤ
  | .x86_64 => nrs.x86_64
  | .arm64 => nrs.arm64
  | .rv64 => nrs.rv64

/-- A row: the helper that is called and its arguments. -/
inductive SyscallRow where
  | unimpl (name : Str) (nrs : ArchNrs)
  | impl (name : Str) (args : List Str) (nrs : ArchNrs) (aliases : List Str := [])
      (unusedAliases : List Str := [])

namespace SyscallRow

def name : SyscallRow → Str
  | .unimpl name _ => name
  | .impl name .. => name

def nrs : SyscallRow → ArchNrs
  | .unimpl _ nrs => nrs
  | .impl _ _ nrs .. => nrs

def args : SyscallRow → List Str
  | .unimpl .. => []
  | .impl _ args .. => args

/-- The helper is called. -/
def eval : SyscallRow → Except Py.Error Syscall
  | .unimpl name nrs => .ok (Wali.unimpl name nrs)
  | .impl name args nrs aliases unusedAliases => Wali.impl name args nrs aliases unusedAliases

end SyscallRow

/-- `SYSCALLS`, with the assertion that follows it. -/
def loadSyscalls (list : List Syscall) : Except Py.Error (Dict Str Syscall) :=
  let table := Dict.ofList (list.map fun s => (s.name, s))
  if table.entries.length = list.length then .ok table
  else .error (.assertionError "Duplicate entries for same syscall detected")

/-- `_syscall_list`. -/
def syscallRows : List SyscallRow :=
  [.impl "read" ["int fd", "void* buf", "size_t count"] { x86_64 := 0, arm64 := 63, rv64 := 63 },
    .impl "write" ["int fd", "void* buf", "size_t count"] { x86_64 := 1, arm64 := 64, rv64 := 64 },
    .impl "open" ["char* pathname", "int flags", "mode_t mode"] { x86_64 := 2 },
    .impl "close" ["int fd"] { x86_64 := 3, arm64 := 57, rv64 := 57 },
    .impl "stat" ["char* pathname", "struct stat* statbuf"] { x86_64 := 4 },
    .impl "fstat" ["int fd", "struct stat* statbuf"] { x86_64 := 5, arm64 := 80, rv64 := 80 },
    .impl "lstat" ["char* pathname", "struct stat* statbuf"] { x86_64 := 6 },
    .impl "poll" ["struct pollfd* fds", "nfds_t nfds", "int timeout"] { x86_64 := 7 },
    .impl "lseek" ["int fd", "off_t offset", "int whence"] { x86_64 := 8, arm64 := 62, rv64 := 62 },
    .impl "mmap" ["void* addr", "size_t length", "int prot", "int flags", "int fd", "off_t offset"]
      { x86_64 := 9, arm64 := 222, rv64 := 222 } [] ["mmap2"],
    .impl "mprotect" ["void* addr", "size_t len", "int prot"]
      { x86_64 := 10, arm64 := 226, rv64 := 226 },
    .impl "munmap" ["void* addr", "size_t len"] { x86_64 := 11, arm64 := 215, rv64 := 215 },
    .impl "brk" ["void* addr"] { x86_64 := 12, arm64 := 214, rv64 := 214 },
    .impl "rt_sigaction" ["int signum", "struct k_sigaction* act", "struct k_sigaction* oldact",
        "size_t sigsetsize"]
      { x86_64 := 13, arm64 := 134, rv64 := 134 },
    .impl "rt_sigprocmask" ["int how", "sigset_t* set", "sigset_t* oldset", "size_t sigsetsize"]
      { x86_64 := 14, arm64 := 135, rv64 := 135 },
    .impl "rt_sigreturn" ["long unused"] { x86_64 := 15, arm64 := 139, rv64 := 139 },
    .impl "ioctl" ["int fd", "int request", "char* argp"] { x86_64 := 16, arm64 := 29, rv64 := 29 },
    .impl "pread64" ["int fd", "char* buf", "size_t count", "off_t offset"]
      { x86_64 := 17, arm64 := 67, rv64 := 67 },
    .impl "pwrite64" ["int fd", "char* buf", "size_t count", "off_t offset"]
      { x86_64 := 18, arm64 := 68, rv64 := 68 },
    .impl "readv" ["int fd", "struct iovec* iov", "int iovcnt"]
      { x86_64 := 19, arm64 := 65, rv64 := 65 },
    .impl "writev" ["int fd", "struct iovec* iov", "int iovcnt"]
      { x86_64 := 20, arm64 := 66, rv64 := 66 },
    .impl "access" ["char* pathname", "int mode"] { x86_64 := 21 },
    .impl "pipe" ["int* pipefd"] { x86_64 := 22 },
    .impl "select" ["int nfds", "fd_set* readfds", "fd_set* writefds", "fd_set* exceptfds",
        "struct timeval* timeout"]
      { x86_64 := 23 },
    .impl "sched_yield" [] { x86_64 := 24, arm64 := 124, rv64 := 124 },
    .impl "mremap" ["void* old_address", "size_t old_size", "size_t new_size", "int flags",
        "void* new_address"]
      { x86_64 := 25, arm64 := 216, rv64 := 216 },
    .impl "msync" ["void* addr", "size_t length", "int flags"]
      { x86_64 := 26, arm64 := 227, rv64 := 227 },
    .unimpl "mincore" { x86_64 := 27, arm64 := 232, rv64 := 232 },
    .impl "madvise" ["void* addr", "size_t length", "int advice"]
      { x86_64 := 28, arm64 := 233, rv64 := 233 },
    .unimpl "shmget" { x86_64 := 29, arm64 := 194, rv64 := 194 },
    .unimpl "shmat" { x86_64 := 30, arm64 := 196, rv64 := 196 },
    .unimpl "shmctl" { x86_64 := 31, arm64 := 195, rv64 := 195 },
    .impl "dup" ["int oldfd"] { x86_64 := 32, arm64 := 23, rv64 := 23 },
    .impl "dup2" ["int oldfd", "int newfd"] { x86_64 := 33 },
    .unimpl "pause" { x86_64 := 34 },
    .impl "nanosleep" ["struct timespec* req", "struct timespec* rem"]
      { x86_64 := 35, arm64 := 101, rv64 := 101 },
    .unimpl "getitimer" { x86_64 := 36, arm64 := 102, rv64 := 102 },
    .unimpl "alarm" { x86_64 := 37 },
    .impl "setitimer" ["int which", "struct itimerval* new_value", "struct itimerval* old_value"]
      { x86_64 := 38, arm64 := 103, rv64 := 103 },
    .impl "getpid" [] { x86_64 := 39, arm64 := 172, rv64 := 172 },
    .unimpl "sendfile" { x86_64 := 40, arm64 := 71, rv64 := 71 },
    .impl "socket" ["int domain", "int type", "int protocol"]
      { x86_64 := 41, arm64 := 198, rv64 := 198 },
    .impl "connect" ["int sockfd", "struct sockaddr* addr", "socklen_t addrlen"]
      { x86_64 := 42, arm64 := 203, rv64 := 203 },
    .impl "accept" ["int sockfd", "struct sockaddr* addr", "socklen_t* addrlen"]
      { x86_64 := 43, arm64 := 202, rv64 := 202 },
    .impl "sendto" ["int sockfd", "void* buf", "size_t len", "int flags",
        "struct sockaddr* dest_addr", "socklen_t addrlen"]
      { x86_64 := 44, arm64 := 206, rv64 := 206 },
    .impl "recvfrom" ["int sockfd", "void* buf", "size_t len", "int flags",
        "struct sockaddr* src_addr", "socklen_t* addrlen"]
      { x86_64 := 45, arm64 := 207, rv64 := 207 },
    .impl "sendmsg" ["int sockfd", "struct msghdr* msg", "int flags"]
      { x86_64 := 46, arm64 := 211, rv64 := 211 },
    .impl "recvmsg" ["int sockfd", "struct msghdr* msg", "int flags"]
      { x86_64 := 47, arm64 := 212, rv64 := 212 },
    .impl "shutdown" ["int sockfd", "int how"] { x86_64 := 48, arm64 := 210, rv64 := 210 },
    .impl "bind" ["int sockfd", "struct sockaddr* addr", "socklen_t addrlen"]
      { x86_64 := 49, arm64 := 200, rv64 := 200 },
    .impl "listen" ["int sockfd", "int backlog"] { x86_64 := 50, arm64 := 201, rv64 := 201 },
    .impl "getsockname" ["int sockfd", "struct sockaddr* addr", "socklen_t* addrlen"]
      { x86_64 := 51, arm64 := 204, rv64 := 204 },
    .impl "getpeername" ["int sockfd", "struct sockaddr* addr", "socklen_t* addrlen"]
      { x86_64 := 52, arm64 := 205, rv64 := 205 },
    .impl "socketpair" ["int domain", "int type", "int protocol", "int* sv"]
      { x86_64 := 53, arm64 := 199, rv64 := 199 },
    .impl "setsockopt" ["int sockfd", "int level", "int optname", "void* optval",
        "socklen_t optlen"]
      { x86_64 := 54, arm64 := 208, rv64 := 208 },
    .impl "getsockopt" ["int sockfd", "int level", "int optname", "void* optval",
        "socklen_t* optlen"]
      { x86_64 := 55, arm64 := 209, rv64 := 209 },
    .unimpl "clone" { x86_64 := 56, arm64 := 220, rv64 := 220 },
    .impl "fork" [] { x86_64 := 57 },
    .unimpl "vfork" { x86_64 := 58 },
    .impl "execve" ["char* pathname", "char** argv", "char** envp"]
      { x86_64 := 59, arm64 := 221, rv64 := 221 },
    .impl "exit" ["int status"] { x86_64 := 60, arm64 := 93, rv64 := 93 },
    .impl "wait4" ["pid_t pid", "int* wstatus", "int options", "struct rusage* rusage"]
      { x86_64 := 61, arm64 := 260, rv64 := 260 },
    .impl "kill" ["pid_t pid", "int sig"] { x86_64 := 62, arm64 := 129, rv64 := 129 },
    .impl "uname" ["struct utsname* buf"] { x86_64 := 63, arm64 := 160, rv64 := 160 },
    .unimpl "semget" { x86_64 := 64, arm64 := 190, rv64 := 190 },
    .unimpl "semop" { x86_64 := 65, arm64 := 193, rv64 := 193 },
    .unimpl "semctl" { x86_64 := 66, arm64 := 191, rv64 := 191 },
    .unimpl "shmdt" { x86_64 := 67, arm64 := 197, rv64 := 197 },
    .unimpl "msgget" { x86_64 := 68, arm64 := 186, rv64 := 186 },
    .unimpl "msgsnd" { x86_64 := 69, arm64 := 189, rv64 := 189 },
    .unimpl "msgrcv" { x86_64 := 70, arm64 := 188, rv64 := 188 },
    .unimpl "msgctl" { x86_64 := 71, arm64 := 187, rv64 := 187 },
    .impl "fcntl" ["int fd", "int cmd", "unsigned long arg"]
      { x86_64 := 72, arm64 := 25, rv64 := 25 },
    .impl "flock" ["int fd", "int operation"] { x86_64 := 73, arm64 := 32, rv64 := 32 },
    .impl "fsync" ["int fd"] { x86_64 := 74, arm64 := 82, rv64 := 82 },
    .impl "fdatasync" ["int fd"] { x86_64 := 75, arm64 := 83, rv64 := 83 },
    .unimpl "truncate" { x86_64 := 76, arm64 := 45, rv64 := 45 },
    .impl "ftruncate" ["int fd", "off_t length"] { x86_64 := 77, arm64 := 46, rv64 := 46 },
    .unimpl "getdents" { x86_64 := 78 },
    .impl "getcwd" ["char* buf", "size_t size"] { x86_64 := 79, arm64 := 17, rv64 := 17 },
    .impl "chdir" ["char* path"] { x86_64 := 80, arm64 := 49, rv64 := 49 },
    .impl "fchdir" ["int fd"] { x86_64 := 81, arm64 := 50, rv64 := 50 },
    .impl "rename" ["char* oldpath", "char* newpath"] { x86_64 := 82 },
    .impl "mkdir" ["char* pathname", "mode_t mode"] { x86_64 := 83 },
    .impl "rmdir" ["char* pathname"] { x86_64 := 84 },
    .unimpl "creat" { x86_64 := 85 },
    .impl "link" ["char* oldpath", "char* newpath"] { x86_64 := 86 },
    .impl "unlink" ["char* pathname"] { x86_64 := 87 },
    .impl "symlink" ["char* target", "char* linkpath"] { x86_64 := 88 },
    .impl "readlink" ["char* pathname", "char* buf", "size_t bufsiz"] { x86_64 := 89 },
    .impl "chmod" ["char* pathname", "mode_t mode"] { x86_64 := 90 },
    .impl "fchmod" ["int fd", "mode_t mode"] { x86_64 := 91, arm64 := 52, rv64 := 52 },
    .impl "chown" ["char* pathname", "uid_t owner", "gid_t group"] { x86_64 := 92 },
    .impl "fchown" ["int fd", "uid_t owner", "gid_t group"]
      { x86_64 := 93, arm64 := 55, rv64 := 55 },
    .unimpl "lchown" { x86_64 := 94 },
    .impl "umask" ["mode_t mask"] { x86_64 := 95, arm64 := 166, rv64 := 166 },
    .impl "gettimeofday" ["struct timeval* tv", "struct timezone* tz"]
      { x86_64 := 96, arm64 := 169, rv64 := 169 },
    .impl "getrlimit" ["int resource", "struct rlimit* rlim"]
      { x86_64 := 97, arm64 := 163, rv64 := 163 },
    .impl "getrusage" ["int who", "struct rusage* usage"]
      { x86_64 := 98, arm64 := 165, rv64 := 165 },
    .impl "sysinfo" ["struct sysinfo* info"] { x86_64 := 99, arm64 := 179, rv64 := 179 },
    .unimpl "times" { x86_64 := 100, arm64 := 153, rv64 := 153 },
    .unimpl "ptrace" { x86_64 := 101, arm64 := 117, rv64 := 117 },
    .impl "getuid" [] { x86_64 := 102, arm64 := 174, rv64 := 174 },
    .unimpl "syslog" { x86_64 := 103, arm64 := 116, rv64 := 116 },
    .impl "getgid" [] { x86_64 := 104, arm64 := 176, rv64 := 176 },
    .impl "setuid" ["uid_t uid"] { x86_64 := 105, arm64 := 146, rv64 := 146 },
    .impl "setgid" ["gid_t gid"] { x86_64 := 106, arm64 := 144, rv64 := 144 },
    .impl "geteuid" [] { x86_64 := 107, arm64 := 175, rv64 := 175 },
    .impl "getegid" [] { x86_64 := 108, arm64 := 177, rv64 := 177 },
    .impl "setpgid" ["pid_t pid", "pid_t pgid"] { x86_64 := 109, arm64 := 154, rv64 := 154 },
    .impl "getppid" [] { x86_64 := 110, arm64 := 173, rv64 := 173 },
    .unimpl "getpgrp" { x86_64 := 111, arm64 := 151, rv64 := 151 },
    .impl "setsid" [] { x86_64 := 112, arm64 := 157, rv64 := 157 },
    .impl "setreuid" ["uid_t ruid", "uid_t euid"] { x86_64 := 113, arm64 := 145, rv64 := 145 },
    .impl "setregid" ["gid_t rgid", "gid_t egid"] { x86_64 := 114, arm64 := 143, rv64 := 143 },
    .impl "getgroups" ["size_t size", "gid_t* list"] { x86_64 := 115, arm64 := 158, rv64 := 158 },
    .impl "setgroups" ["size_t size", "gid_t* list"] { x86_64 := 116, arm64 := 159, rv64 := 159 },
    .impl "setresuid" ["uid_t ruid", "uid_t euid", "uid_t suid"]
      { x86_64 := 117, arm64 := 147, rv64 := 147 },
    .unimpl "getresuid" { x86_64 := 118, arm64 := 148, rv64 := 148 },
    .impl "setresgid" ["gid_t rgid", "gid_t egid", "gid_t sgid"]
      { x86_64 := 119, arm64 := 149, rv64 := 149 },
    .unimpl "getresgid" { x86_64 := 120, arm64 := 150, rv64 := 150 },
    .impl "getpgid" ["pid_t pid"] { x86_64 := 121, arm64 := 155, rv64 := 155 },
    .unimpl "setfsuid" { x86_64 := 122, arm64 := 151, rv64 := 151 },
    .unimpl "setfsgid" { x86_64 := 123, arm64 := 152, rv64 := 152 },
    .impl "getsid" ["pid_t pid"] { x86_64 := 124, arm64 := 156, rv64 := 156 },
    .unimpl "capget" { x86_64 := 125, arm64 := 90, rv64 := 90 },
    .unimpl "capset" { x86_64 := 126, arm64 := 91, rv64 := 91 },
    .impl "rt_sigpending" ["sigset_t* set", "size_t sigsetsize"]
      { x86_64 := 127, arm64 := 136, rv64 := 136 },
    .unimpl "rt_sigtimedwait" { x86_64 := 128, arm64 := 137, rv64 := 137 },
    .unimpl "rt_sigqueueinfo" { x86_64 := 129, arm64 := 138, rv64 := 138 },
    .impl "rt_sigsuspend" ["sigset_t* mask", "size_t sigsetsize"]
      { x86_64 := 130, arm64 := 133, rv64 := 133 },
    .impl "sigaltstack" ["stack_t* ss", "stack_t* old_ss"]
      { x86_64 := 131, arm64 := 132, rv64 := 132 },
    .unimpl "utime" { x86_64 := 132 },
    .unimpl "mknod" { x86_64 := 133 },
    .unimpl "uselib" { x86_64 := 134 },
    .unimpl "personality" { x86_64 := 135, arm64 := 92, rv64 := 92 },
    .unimpl "ustat" { x86_64 := 136 },
    .impl "statfs" ["char* path", "struct statfs* buf"] { x86_64 := 137, arm64 := 43, rv64 := 43 },
    .impl "fstatfs" ["int fd", "struct statfs* buf"] { x86_64 := 138, arm64 := 44, rv64 := 44 },
    .unimpl "sysfs" { x86_64 := 139 },
    .unimpl "getpriority" { x86_64 := 140, arm64 := 141, rv64 := 141 },
    .unimpl "setpriority" { x86_64 := 141, arm64 := 140, rv64 := 140 },
    .unimpl "sched_setparam" { x86_64 := 142, arm64 := 118, rv64 := 118 },
    .unimpl "sched_getparam" { x86_64 := 143, arm64 := 121, rv64 := 121 },
    .unimpl "sched_setscheduler" { x86_64 := 144, arm64 := 119, rv64 := 119 },
    .unimpl "sched_getscheduler" { x86_64 := 145, arm64 := 120, rv64 := 120 },
    .unimpl "sched_get_priority_max" { x86_64 := 146, arm64 := 125, rv64 := 125 },
    .unimpl "sched_get_priority_min" { x86_64 := 147, arm64 := 126, rv64 := 126 },
    .unimpl "sched_rr_get_interval" { x86_64 := 148, arm64 := 127, rv64 := 127 },
    .unimpl "mlock" { x86_64 := 149, arm64 := 228, rv64 := 228 },
    .unimpl "munlock" { x86_64 := 150, arm64 := 229, rv64 := 229 },
    .unimpl "mlockall" { x86_64 := 151, arm64 := 230, rv64 := 230 },
    .unimpl "munlockall" { x86_64 := 152, arm64 := 231, rv64 := 231 },
    .unimpl "vhangup" { x86_64 := 153, arm64 := 58, rv64 := 58 },
    .unimpl "modify_ldt" { x86_64 := 154 },
    .unimpl "pivot_root" { x86_64 := 155, arm64 := 41, rv64 := 41 },
    .unimpl "_sysctl" { x86_64 := 156 },
    .impl "prctl" ["int option", "unsigned long arg2", "unsigned long arg3", "unsigned long arg4",
        "unsigned long arg5"]
      { x86_64 := 157, arm64 := 167, rv64 := 167 },
    .unimpl "arch_prctl" { x86_64 := 158 },
    .unimpl "adjtimex" { x86_64 := 159, arm64 := 171, rv64 := 171 },
    .impl "setrlimit" ["int resource", "struct rlimit* rlim"]
      { x86_64 := 160, arm64 := 164, rv64 := 164 },
    .impl "chroot" ["char* path"] { x86_64 := 161, arm64 := 51, rv64 := 51 },
    .unimpl "sync" { x86_64 := 162, arm64 := 81, rv64 := 81 },
    .unimpl "acct" { x86_64 := 163, arm64 := 89, rv64 := 89 },
    .unimpl "settimeofday" { x86_64 := 164, arm64 := 170, rv64 := 170 },
    .unimpl "mount" { x86_64 := 165, arm64 := 40, rv64 := 40 },
    .unimpl "umount2" { x86_64 := 166, arm64 := 39, rv64 := 39 },
    .unimpl "swapon" { x86_64 := 167, arm64 := 224, rv64 := 224 },
    .unimpl "swapoff" { x86_64 := 168, arm64 := 225, rv64 := 225 },
    .unimpl "reboot" { x86_64 := 169, arm64 := 142, rv64 := 142 },
    .unimpl "sethostname" { x86_64 := 170, arm64 := 161, rv64 := 161 },
    .unimpl "setdomainname" { x86_64 := 171, arm64 := 162, rv64 := 162 },
    .unimpl "iopl" { x86_64 := 172 },
    .unimpl "ioperm" { x86_64 := 173 },
    .unimpl "create_module" { x86_64 := 174 },
    .unimpl "init_module" { x86_64 := 175, arm64 := 105, rv64 := 105 },
    .unimpl "delete_module" { x86_64 := 176, arm64 := 106, rv64 := 106 },
    .unimpl "get_kernel_syms" { x86_64 := 177 },
    .unimpl "query_module" { x86_64 := 178 },
    .unimpl "quotactl" { x86_64 := 179, arm64 := 60, rv64 := 60 },
    .unimpl "nfsservctl" { x86_64 := 180, arm64 := 42 },
    .unimpl "getpmsg" { x86_64 := 181 },
    .unimpl "putpmsg" { x86_64 := 182 },
    .unimpl "afs_syscall" { x86_64 := 183 },
    .unimpl "tuxcall" { x86_64 := 184 },
    .unimpl "security" { x86_64 := 185 },
    .impl "gettid" [] { x86_64 := 186, arm64 := 178, rv64 := 178 },
    .unimpl "readahead" { x86_64 := 187, arm64 := 213, rv64 := 213 },
    .unimpl "setxattr" { x86_64 := 188, arm64 := 5, rv64 := 5 },
    .unimpl "lsetxattr" { x86_64 := 189, arm64 := 6, rv64 := 6 },
    .unimpl "fsetxattr" { x86_64 := 190, arm64 := 7, rv64 := 7 },
    .unimpl "getxattr" { x86_64 := 191, arm64 := 8, rv64 := 8 },
    .unimpl "lgetxattr" { x86_64 := 192, arm64 := 9, rv64 := 9 },
    .unimpl "fgetxattr" { x86_64 := 193, arm64 := 10, rv64 := 10 },
    .unimpl "listxattr" { x86_64 := 194, arm64 := 11, rv64 := 11 },
    .unimpl "llistxattr" { x86_64 := 195, arm64 := 12, rv64 := 12 },
    .unimpl "flistxattr" { x86_64 := 196, arm64 := 13, rv64 := 13 },
    .unimpl "removexattr" { x86_64 := 197, arm64 := 14, rv64 := 14 },
    .unimpl "lremovexattr" { x86_64 := 198, arm64 := 15, rv64 := 15 },
    .unimpl "fremovexattr" { x86_64 := 199, arm64 := 16, rv64 := 16 },
    .impl "tkill" ["int tid", "int sig"] { x86_64 := 200, arm64 := 130, rv64 := 130 },
    .unimpl "time" { x86_64 := 201 },
    .impl "futex" ["int* uaddr", "int futex_op", "int val", "struct timespec* timeout",
        "int* uaddr2", "int val3"]
      { x86_64 := 202, arm64 := 98, rv64 := 98 },
    .unimpl "sched_setaffinity" { x86_64 := 203, arm64 := 122, rv64 := 122 },
    .impl "sched_getaffinity" ["pid_t pid", "size_t cpusetsize", "cpu_set_t* mask"]
      { x86_64 := 204, arm64 := 123, rv64 := 123 },
    .unimpl "set_thread_area" { x86_64 := 205 },
    .unimpl "io_setup" { x86_64 := 206, arm64 := 0, rv64 := 0 },
    .unimpl "io_destroy" { x86_64 := 207, arm64 := 1, rv64 := 1 },
    .unimpl "io_getevents" { x86_64 := 208, arm64 := 4, rv64 := 4 },
    .unimpl "io_submit" { x86_64 := 209, arm64 := 2, rv64 := 2 },
    .unimpl "io_cancel" { x86_64 := 210, arm64 := 3, rv64 := 3 },
    .unimpl "get_thread_area" { x86_64 := 211 },
    .unimpl "lookup_dcookie" { x86_64 := 212, arm64 := 18, rv64 := 18 },
    .unimpl "epoll_create" { x86_64 := 213 },
    .unimpl "epoll_ctl_old" { x86_64 := 214 },
    .unimpl "epoll_wait_old" { x86_64 := 215 },
    .unimpl "remap_file_pages" { x86_64 := 216, arm64 := 234, rv64 := 234 },
    .impl "getdents64" ["int fd", "struct dirent* dirp", "int count"]
      { x86_64 := 217, arm64 := 61, rv64 := 61 } ["getdents"],
    .impl "set_tid_address" ["int* tidptr"] { x86_64 := 218, arm64 := 96, rv64 := 96 },
    .unimpl "restart_syscall" { x86_64 := 219, arm64 := 128, rv64 := 128 },
    .unimpl "semtimedop" { x86_64 := 220, arm64 := 192, rv64 := 192 },
    .impl "fadvise" ["int fd", "off_t offset", "off_t len", "int advice"]
      { x86_64 := 221, arm64 := 223, rv64 := 223 } [] ["fadvise64"],
    .unimpl "timer_create" { x86_64 := 222, arm64 := 107, rv64 := 107 },
    .unimpl "timer_settime" { x86_64 := 223, arm64 := 110, rv64 := 110 },
    .unimpl "timer_gettime" { x86_64 := 224, arm64 := 108, rv64 := 108 },
    .unimpl "timer_getoverrun" { x86_64 := 225, arm64 := 109, rv64 := 109 },
    .unimpl "timer_delete" { x86_64 := 226, arm64 := 111, rv64 := 111 },
    .unimpl "clock_settime" { x86_64 := 227, arm64 := 112, rv64 := 112 },
    .impl "clock_gettime" ["clockid_t clockid", "struct timespec* tp"]
      { x86_64 := 228, arm64 := 113, rv64 := 113 },
    .impl "clock_getres" ["clockid_t clockid", "struct timespec* res"]
      { x86_64 := 229, arm64 := 114, rv64 := 114 },
    .impl "clock_nanosleep" ["clockid_t clockid", "int flags", "struct timespec* request",
        "struct timespec* remain"]
      { x86_64 := 230, arm64 := 115, rv64 := 115 },
    .impl "exit_group" ["int status"] { x86_64 := 231, arm64 := 94, rv64 := 94 },
    .unimpl "epoll_wait" { x86_64 := 232 },
    .impl "epoll_ctl" ["int epfd", "int op", "int fd", "struct epoll_event* event"]
      { x86_64 := 233, arm64 := 21, rv64 := 21 },
    .unimpl "tgkill" { x86_64 := 234, arm64 := 131, rv64 := 131 },
    .unimpl "utimes" { x86_64 := 235 },
    .unimpl "vserver" { x86_64 := 236 },
    .unimpl "mbind" { x86_64 := 237, arm64 := 235, rv64 := 235 },
    .unimpl "set_mempolicy" { x86_64 := 238, arm64 := 237, rv64 := 237 },
    .unimpl "get_mempolicy" { x86_64 := 239, arm64 := 236, rv64 := 236 },
    .unimpl "mq_open" { x86_64 := 240, arm64 := 180, rv64 := 180 },
    .unimpl "mq_unlink" { x86_64 := 241, arm64 := 181, rv64 := 181 },
    .unimpl "mq_timedsend" { x86_64 := 242, arm64 := 182, rv64 := 182 },
    .unimpl "mq_timedreceive" { x86_64 := 243, arm64 := 183, rv64 := 183 },
    .unimpl "mq_notify" { x86_64 := 244, arm64 := 184, rv64 := 184 },
    .unimpl "mq_getsetattr" { x86_64 := 245, arm64 := 185, rv64 := 185 },
    .unimpl "kexec_load" { x86_64 := 246, arm64 := 104, rv64 := 104 },
    .unimpl "waitid" { x86_64 := 247, arm64 := 95, rv64 := 95 },
    .unimpl "add_key" { x86_64 := 248, arm64 := 217, rv64 := 217 },
    .unimpl "request_key" { x86_64 := 249, arm64 := 218, rv64 := 218 },
    .unimpl "keyctl" { x86_64 := 250, arm64 := 219, rv64 := 219 },
    .unimpl "ioprio_set" { x86_64 := 251, arm64 := 30, rv64 := 30 },
    .unimpl "ioprio_get" { x86_64 := 252, arm64 := 31, rv64 := 31 },
    .unimpl "inotify_init" { x86_64 := 253 },
    .unimpl "inotify_add_watch" { x86_64 := 254, arm64 := 27, rv64 := 27 },
    .unimpl "inotify_rm_watch" { x86_64 := 255, arm64 := 28, rv64 := 28 },
    .unimpl "migrate_pages" { x86_64 := 256, arm64 := 238, rv64 := 238 },
    .impl "openat" ["int dirfd", "char* pathname", "int flags", "mode_t mode"]
      { x86_64 := 257, arm64 := 56, rv64 := 56 },
    .impl "mkdirat" ["int dirfd", "char* pathname", "mode_t mode"]
      { x86_64 := 258, arm64 := 34, rv64 := 34 },
    .unimpl "mknodat" { x86_64 := 259, arm64 := 33, rv64 := 33 },
    .impl "fchownat" ["int dirfd", "char* pathname", "uid_t owner", "gid_t group", "int flags"]
      { x86_64 := 260, arm64 := 54, rv64 := 54 },
    .unimpl "futimesat" { x86_64 := 261 },
    .impl "newfstatat" ["int dirfd", "char* pathname", "struct stat* statbuf", "int flags"]
      { x86_64 := 262, arm64 := 79, rv64 := 79 } ["fstatat"],
    .impl "unlinkat" ["int dirfd", "char* pathname", "int flags"]
      { x86_64 := 263, arm64 := 35, rv64 := 35 },
    .unimpl "renameat" { x86_64 := 264, arm64 := 38, rv64 := 38 },
    .impl "linkat" ["int olddirfd", "char* oldpath", "int newdirfd", "char* newpath", "int flags"]
      { x86_64 := 265, arm64 := 37, rv64 := 37 },
    .impl "symlinkat" ["char* target", "int newdirfd", "char* linkpath"]
      { x86_64 := 266, arm64 := 36, rv64 := 36 },
    .impl "readlinkat" ["int dirfd", "char* pathname", "char* buf", "size_t bufsiz"]
      { x86_64 := 267, arm64 := 78, rv64 := 78 },
    .impl "fchmodat" ["int dirfd", "char* pathname", "mode_t mode", "int flags"]
      { x86_64 := 268, arm64 := 53, rv64 := 53 },
    .impl "faccessat" ["int dirfd", "char* pathname", "int mode", "int flags"]
      { x86_64 := 269, arm64 := 48, rv64 := 48 },
    .impl "pselect6" ["int nfds", "fd_set* readfds", "fd_set* writefds", "fd_set* exceptfds",
        "struct timespec* timeout", "void* sigmask"]
      { x86_64 := 270, arm64 := 72, rv64 := 72 },
    .impl "ppoll" ["struct pollfd* fds", "nfds_t nfds", "struct timespec* tmo_p",
        "sigset_t* sigmask", "size_t sigsetsize"]
      { x86_64 := 271, arm64 := 73, rv64 := 73 },
    .unimpl "unshare" { x86_64 := 272, arm64 := 97, rv64 := 97 },
    .unimpl "set_robust_list" { x86_64 := 273, arm64 := 99, rv64 := 99 },
    .unimpl "get_robust_list" { x86_64 := 274, arm64 := 100, rv64 := 100 },
    .unimpl "splice" { x86_64 := 275, arm64 := 76, rv64 := 76 },
    .unimpl "tee" { x86_64 := 276, arm64 := 77, rv64 := 77 },
    .unimpl "sync_file_range" { x86_64 := 277, arm64 := 84, rv64 := 84 },
    .unimpl "vmsplice" { x86_64 := 278, arm64 := 75, rv64 := 75 },
    .unimpl "move_pages" { x86_64 := 279, arm64 := 239, rv64 := 239 },
    .impl "utimensat" ["int dirfd", "char* pathname", "struct timespec* times", "int flags"]
      { x86_64 := 280, arm64 := 88, rv64 := 88 },
    .impl "epoll_pwait" ["int epfd", "struct epoll_event* events", "int maxevents", "int timeout",
        "sigset_t* sigmask", "size_t sigsetsize"]
      { x86_64 := 281, arm64 := 22, rv64 := 22 },
    .unimpl "signalfd" { x86_64 := 282 },
    .unimpl "timerfd_create" { x86_64 := 283, arm64 := 85, rv64 := 85 },
    .impl "eventfd" ["int initval"] { x86_64 := 284 },
    .unimpl "fallocate" { x86_64 := 285, arm64 := 47, rv64 := 47 },
    .unimpl "timerfd_settime" { x86_64 := 286, arm64 := 86, rv64 := 86 },
    .unimpl "timerfd_gettime" { x86_64 := 287, arm64 := 87, rv64 := 87 },
    .impl "accept4" ["int sockfd", "struct sockaddr* addr", "socklen_t* addrlen", "int flags"]
      { x86_64 := 288, arm64 := 242, rv64 := 242 },
    .unimpl "signalfd4" { x86_64 := 289, arm64 := 74, rv64 := 74 },
    .impl "eventfd2" ["int initval", "int flags"] { x86_64 := 290, arm64 := 19, rv64 := 19 },
    .impl "epoll_create1" ["int flags"] { x86_64 := 291, arm64 := 20, rv64 := 20 },
    .impl "dup3" ["int oldfd", "int newfd", "int flags"] { x86_64 := 292, arm64 := 24, rv64 := 24 },
    .impl "pipe2" ["int* pipefd", "int flags"] { x86_64 := 293, arm64 := 59, rv64 := 59 },
    .unimpl "inotify_init1" { x86_64 := 294, arm64 := 26, rv64 := 26 },
    .unimpl "preadv" { x86_64 := 295, arm64 := 69, rv64 := 69 },
    .unimpl "pwritev" { x86_64 := 296, arm64 := 70, rv64 := 70 },
    .unimpl "rt_tgsigqueueinfo" { x86_64 := 297, arm64 := 240, rv64 := 240 },
    .unimpl "perf_event_open" { x86_64 := 298, arm64 := 241, rv64 := 241 },
    .unimpl "recvmmsg" { x86_64 := 299, arm64 := 243, rv64 := 243 },
    .unimpl "fanotify_init" { x86_64 := 300, arm64 := 262, rv64 := 262 },
    .unimpl "fanotify_mark" { x86_64 := 301, arm64 := 263, rv64 := 263 },
    .impl "prlimit64" ["pid_t pid", "int resource", "struct rlimit* new_limit",
        "struct rlimit* old_limit"]
      { x86_64 := 302, arm64 := 261, rv64 := 261 },
    .unimpl "name_to_handle_at" { x86_64 := 303, arm64 := 264, rv64 := 264 },
    .unimpl "open_by_handle_at" { x86_64 := 304, arm64 := 265, rv64 := 265 },
    .unimpl "clock_adjtime" { x86_64 := 305, arm64 := 266, rv64 := 266 },
    .unimpl "syncfs" { x86_64 := 306, arm64 := 267, rv64 := 267 },
    .unimpl "sendmmsg" { x86_64 := 307, arm64 := 269, rv64 := 269 },
    .unimpl "setns" { x86_64 := 308, arm64 := 268, rv64 := 268 },
    .unimpl "getcpu" { x86_64 := 309, arm64 := 168, rv64 := 168 },
    .unimpl "process_vm_readv" { x86_64 := 310, arm64 := 270, rv64 := 270 },
    .unimpl "process_vm_writev" { x86_64 := 311, arm64 := 271, rv64 := 271 },
    .unimpl "kcmp" { x86_64 := 312, arm64 := 272, rv64 := 272 },
    .unimpl "finit_module" { x86_64 := 313, arm64 := 273, rv64 := 273 },
    .unimpl "sched_setattr" { x86_64 := 314, arm64 := 274, rv64 := 274 },
    .unimpl "sched_getattr" { x86_64 := 315, arm64 := 275, rv64 := 275 },
    .impl "renameat2" ["int olddirfd", "char* oldpath", "int newdirfd", "char* newpath",
        "int flags"]
      { x86_64 := 316, arm64 := 276, rv64 := 276 },
    .unimpl "seccomp" { x86_64 := 317, arm64 := 277, rv64 := 277 },
    .impl "getrandom" ["void* buf", "size_t buflen", "int flags"]
      { x86_64 := 318, arm64 := 278, rv64 := 278 },
    .unimpl "memfd_create" { x86_64 := 319, arm64 := 279, rv64 := 279 },
    .unimpl "kexec_file_load" { x86_64 := 320, arm64 := 294, rv64 := 294 },
    .unimpl "bpf" { x86_64 := 321, arm64 := 280, rv64 := 280 },
    .unimpl "execveat" { x86_64 := 322, arm64 := 281, rv64 := 281 },
    .unimpl "userfaultfd" { x86_64 := 323, arm64 := 282, rv64 := 282 },
    .unimpl "membarrier" { x86_64 := 324, arm64 := 283, rv64 := 283 },
    .unimpl "mlock2" { x86_64 := 325, arm64 := 284, rv64 := 284 },
    .unimpl "copy_file_range" { x86_64 := 326, arm64 := 285, rv64 := 285 },
    .unimpl "preadv2" { x86_64 := 327, arm64 := 286, rv64 := 286 },
    .unimpl "pwritev2" { x86_64 := 328, arm64 := 287, rv64 := 287 },
    .unimpl "pkey_mprotect" { x86_64 := 329, arm64 := 288, rv64 := 288 },
    .unimpl "pkey_alloc" { x86_64 := 330, arm64 := 289, rv64 := 289 },
    .unimpl "pkey_free" { x86_64 := 331, arm64 := 290, rv64 := 290 },
    .impl "statx" ["int dirfd", "char* pathname", "int flags", "unsigned int mask",
        "struct statx* statxbuf"]
      { x86_64 := 332, arm64 := 291, rv64 := 291 },
    .unimpl "io_pgetevents" { x86_64 := 333, arm64 := 292, rv64 := 292 },
    .unimpl "rseq" { x86_64 := 334, arm64 := 293, rv64 := 293 },
    .unimpl "pidfd_send_signal" { x86_64 := 424, arm64 := 424, rv64 := 424 },
    .unimpl "io_uring_setup" { x86_64 := 425, arm64 := 425, rv64 := 425 },
    .unimpl "io_uring_enter" { x86_64 := 426, arm64 := 426, rv64 := 426 },
    .unimpl "io_uring_register" { x86_64 := 427, arm64 := 427, rv64 := 427 },
    .unimpl "open_tree" { x86_64 := 428, arm64 := 428, rv64 := 428 },
    .unimpl "move_mount" { x86_64 := 429, arm64 := 429, rv64 := 429 },
    .unimpl "fsopen" { x86_64 := 430, arm64 := 430, rv64 := 430 },
    .unimpl "fsconfig" { x86_64 := 431, arm64 := 431, rv64 := 431 },
    .unimpl "fsmount" { x86_64 := 432, arm64 := 432, rv64 := 432 },
    .unimpl "fspick" { x86_64 := 433, arm64 := 433, rv64 := 433 },
    .unimpl "pidfd_open" { x86_64 := 434, arm64 := 434, rv64 := 434 },
    .unimpl "clone3" { x86_64 := 435, arm64 := 435, rv64 := 435 },
    .unimpl "close_range" { x86_64 := 436, arm64 := 436, rv64 := 436 },
    .unimpl "openat2" { x86_64 := 437, arm64 := 437, rv64 := 437 },
    .unimpl "pidfd_getfd" { x86_64 := 438, arm64 := 438, rv64 := 438 },
    .impl "faccessat2" ["int dirfd", "char* pathname", "int mode", "int flags"]
      { x86_64 := 439, arm64 := 439, rv64 := 439 },
    .unimpl "process_madvise" { x86_64 := 440, arm64 := 440, rv64 := 440 },
    .unimpl "epoll_pwait2" { x86_64 := 441, arm64 := 441, rv64 := 441 },
    .unimpl "mount_setattr" { x86_64 := 442, arm64 := 442, rv64 := 442 },
    .unimpl "quotactl_fd" { x86_64 := 443, arm64 := 443, rv64 := 443 },
    .unimpl "landlock_create_ruleset" { x86_64 := 444, arm64 := 444, rv64 := 444 },
    .unimpl "landlock_add_rule" { x86_64 := 445, arm64 := 445, rv64 := 445 },
    .unimpl "landlock_restrict_self" { x86_64 := 446, arm64 := 446, rv64 := 446 },
    .unimpl "memfd_secret" { x86_64 := 447, arm64 := 447, rv64 := 447 },
    .unimpl "process_mrelease" { x86_64 := 448, arm64 := 448, rv64 := 448 },
    .unimpl "futex_waitv" { x86_64 := 449, arm64 := 449, rv64 := 449 },
    .unimpl "set_mempolicy_home_node" { x86_64 := 450, arm64 := 450, rv64 := 450 }]

/-- The list the rows evaluate to. -/
def syscallList : Except Py.Error (List Syscall) := syscallRows.mapM SyscallRow.eval

section Distinct

/-- No number occurs twice in a list, nor once and as a bit of `seen`. -/
def distinct : ℕ → List ℕ → Bool
  | _, [] => true
  | seen, n :: ns => !seen.testBit n && distinct (seen ||| 2 ^ n) ns

theorem distinct_iff {seen : ℕ} {ns : List ℕ} :
    distinct seen ns = true ↔ (∀ n ∈ ns, seen.testBit n = false) ∧ ns.Nodup := by
  induction ns generalizing seen with
  | nil => simp [distinct]
  | cons n ns ih =>
    have hbit : ∀ m, (seen ||| 2 ^ n).testBit m = false ↔ seen.testBit m = false ∧ n ≠ m := by
      intro m
      rw [Nat.testBit_or, Nat.testBit_two_pow, Bool.or_eq_false_iff, decide_eq_false_iff_not]
    rw [distinct, Bool.and_eq_true, Bool.not_eq_true', ih, List.nodup_cons, List.forall_mem_cons]
    simp only [hbit]
    constructor
    · rintro ⟨hn, hall, hnd⟩
      exact ⟨⟨hn, fun m hm => (hall m hm).1⟩, fun hmem => (hall n hmem).2 rfl, hnd⟩
    · rintro ⟨⟨hn, hall⟩, hnot, hnd⟩
      exact ⟨hn, fun m hm => ⟨hall m hm, fun he => hnot (he ▸ hm)⟩, hnd⟩

theorem distinct_zero_iff {ns : List ℕ} : distinct 0 ns = true ↔ ns.Nodup := by
  rw [distinct_iff]
  exact and_iff_right fun n _ => Nat.zero_testBit n

/-- A small number for a name. -/
def hashName (name : Str) : ℕ := name.foldl (fun h c => (31 * h + c.toNat) % 65521) 7

end Distinct

theorem SyscallRow.eval_name {r : SyscallRow} {sc : Syscall} (h : r.eval = .ok sc) :
    sc.name = r.name ∧ sc.nrs = r.nrs := by
  cases r with
  | unimpl name nrs =>
    obtain rfl := Except.ok.inj h
    exact ⟨rfl, rfl⟩
  | impl name args nrs aliases unusedAliases =>
    obtain ⟨parts, _, hsc⟩ := Py.bind_eq_ok_iff.mp h
    obtain rfl := Except.ok.inj hsc
    exact ⟨rfl, rfl⟩

theorem SyscallRow.eval_ok {r : SyscallRow} (h : ∀ a ∈ r.args, ∃ e, splitArgs a = .ok e) :
    ∃ sc, r.eval = .ok sc := by
  cases r with
  | unimpl name nrs => exact ⟨_, rfl⟩
  | impl name args nrs aliases unusedAliases =>
    obtain ⟨parts, hparts⟩ := Py.mapM_exists_ok h
    exact ⟨_, by rw [eval, Wali.impl, show args.mapM splitArgs = .ok parts from hparts]; rfl⟩

/-- The shipped list is well formed. -/
theorem syscallList_ok : ∃ list, syscallList = .ok list := by
  have hsplit : ∀ r ∈ syscallRows, ∀ a ∈ r.args, (a.head?.any (!Py.isSpace ·) &&
      a.getLast?.any (!Py.isSpace ·) && a.contains ' ') = true := by decide +kernel
  refine Py.mapM_exists_ok fun r hr => r.eval_ok fun a ha => ?_
  have h := hsplit r hr a ha
  rw [Bool.and_eq_true, Bool.and_eq_true] at h
  exact splitArgs_ok h.1.1 h.1.2 h.2

/-- The assertion holds exactly for lists without a repeated name; the dictionary then has the list
as its values. -/
theorem loadSyscalls_eq_ok_iff {list : List Syscall} {table : Dict Str Syscall} :
    loadSyscalls list = .ok table ↔
      (list.map Syscall.name).Nodup ∧ table.entries = list.map fun s => (s.name, s) := by
  have hkeys : (list.map fun s => (s.name, s)).map Prod.fst = list.map Syscall.name := by
    rw [List.map_map]
    rfl
  have hlen : (Dict.ofList (list.map fun s => (s.name, s))).entries.length = list.length ↔
      (list.map Syscall.name).Nodup := by
    rw [← hkeys, ← Dict.length_ofList_eq_iff, List.length_map]
  simp only [loadSyscalls, hlen]
  by_cases hnd : (list.map Syscall.name).Nodup
  · have he := Dict.ofList_entries_of_nodup (hkeys.symm ▸ hnd)
    rw [if_pos hnd, Except.ok.injEq, Dict.eq_iff_entries_eq, he, and_iff_right hnd]
    exact eq_comm
  · rw [if_neg hnd]
    exact iff_of_false (fun h => by cases h) fun h => hnd h.1

/-- No name of the shipped list is repeated. -/
theorem nodup_syscallRows : (syscallRows.map SyscallRow.name).Nodup := by
  have h : distinct 0 ((syscallRows.map SyscallRow.name).map hashName) = true := by decide +kernel
  exact (distinct_zero_iff.mp h).of_map

end Wali
