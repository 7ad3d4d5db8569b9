import Wali.Cut
import Wali.Py.Str
import Wali.Py.Dict
import Wali.Py.Error
import Wali.Py.Text
import Wali.Py.Words
import Wali.Py.Shlex
import Wali.Py.Csv
import Wali.Py.Fill
import Wali.Markdown
import Wali.Py.Format
import Wali.Py.Regex
import Wali.Clib
import Wali.Clib.Decimal
import Wali.Clib.Qsort
import Wali.Threads
import Wali.Chase
import Wali.Layout
import Wali.Placement
import Wali.Paths
import Wali.Abi.Registry
import Wali.Abi.Resolve
import Wali.Abi.Termination
import Wali.Abi.Validate
import Wali.Abi.StructLayout
import Wali.Abi.Registration
import Wali.Abi.Invariant
import Wali.Abi.Acceptance
import Wali.Abi.Leaves
import Wali.Abi.Order
import Wali.Abi.Primitives
import Wali.Syscalls
import Wali.SyscallTable
import Wali.Autogen.Wamr
import Wali.Autogen.Libc
import Wali.Autogen.Dispatch
import Wali.Autogen.Docs
import Wali.Autogen.Pages
import Wali.Autogen.Agreement
import Wali.Wit.Types
import Wali.Autogen.Spelling
import Wali.Wit.Scalars
import Wali.Wit.Records
import Wali.Wit.Generate
import Wali.Wit.Closed
import Wali.Wit.Identifiers
import Wali.Wit.Missing
import Wali.Wit.Text
import Wali.Wit.ArrayPattern
import Wali.Wit.ArrayText
import Wali.Wit.Openings
import Wali.Wit.Arrays
import Wali.Tests.Runner
import Wali.Tests.Teardown
import Wali.Tests.Command
import Wali.Tests.Hooks
import Wali.Mqtt
import Wali.Mqtt.Payload
import Wali.Mqtt.Stats
import Wali.Mqtt.Summary
import Wali.Mqtt.Session
import Wali.Mqtt.Sample
import Wali.Mqtt.Ending
import Wali.Toolchains.Template
import Wali.Toolchains.Generate
import Wali.Toolchains.Agreement
import Wali.Toolchains.Flags
import Wali.Abi.Padding
import Wali.Declarations
import Wali.Tests.Startup
import Wali.Tests.Print
import Wali.Tests.Runs
import Wali.Tests.Verdict
import Wali.Tests.Environment
import Wali.SyscallCsv
import Wali.Autogen.Site
