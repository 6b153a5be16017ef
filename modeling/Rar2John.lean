import Rar2John.Stdio
import Rar2John.Run
import Rar2John.Consts
import Rar2John.Sfx
import Rar2John.Rar5.Read
import Rar2John.Rar5.Vuint
import Rar2John.Rar5.Header
import Rar2John.Rar5.File
import Rar2John.Rar3.Select
import Rar2John.Rar3.Policy
import Rar2John.Rar3.FileName
import Rar2John.Rar3.Entry
import Rar2John.Rar3.File
import Rar2John.Main
import Rar2John.Rar3.Record
import Rar2John.Rar3.NameBounds
import Rar2John.Rar3.ByteOrder
import Rar2John.Rar3.Gecos
import Rar2John.Walk
import Rar2John.Session
import Rar2John.HeaderCrypt
import Rar2John.Rar5.Extra
import Rar2John.Stdout
import Rar2John.Steps
import Rar2John.Rar3.Effects
import Rar2John.Rar3.Incumbent
import Rar2John.Rar5.Records
import Rar2John.Rar3.HashFormat
import Rar2John.Rar3.NameCode
import Rar2John.Program
