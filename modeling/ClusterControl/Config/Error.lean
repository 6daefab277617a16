/-!
# Errors of the configuration
-/

namespace ClusterControl

/-- Why there is no configuration. A parser or the system may add a detail of its own. -/
inductive ConfigError where
  | directoryNotFound
  | fileNotFound
  | parse (path detail : String)
  | invalidValue (key text : String)
  | io (detail : String)
deriving DecidableEq, Repr

namespace ConfigError

def message : ConfigError → String
  | directoryNotFound => "設定ディレクトリが見つかりません"
  | fileNotFound =>
    "設定ファイルが見つかりません。以下の場所を確認してください:\n" ++
      "- カレントディレクトリ: cloudplane.local.yaml, cloudplane.yaml\n" ++
      "- ./.cloudplane/ ディレクトリ\n" ++
      "- ~/.config/cloudplane/cloudplane.yaml\n" ++
      "または CLOUDPLANE_CONFIG_PATH 環境変数で直接指定できます"
  | parse path detail => "設定ファイルの解析に失敗しました (" ++ path ++ "): " ++ detail
  | invalidValue key text => "不正な設定値 " ++ key ++ ": " ++ text
  | io detail => "IO エラー: " ++ detail

end ConfigError

end ClusterControl
